/-!
Undo stacks. Each step that leaves something behind pushes an action; when a later step fails the
actions run, newest first, and a failing one does not stop the others.
-/

namespace Lightpay

/-- Pending actions, newest first. -/
structure UndoStack (α : Type) where
  actions : List α
deriving DecidableEq, Repr

namespace UndoStack

def empty : UndoStack α := ⟨[]⟩

def push (stack : UndoStack α) (action : α) : UndoStack α := ⟨action :: stack.actions⟩

def clear (_ : UndoStack α) : UndoStack α := empty

def runAll (run : α → σ → Except ε Unit × σ) : List α → σ → List (Except ε Unit) × σ
  | [], state => ([], state)
  | action :: rest, state =>
    let (outcome, state) := run action state
    let (outcomes, state) := runAll run rest state
    (outcome :: outcomes, state)

def drain (run : α → σ → Except ε Unit × σ) (stack : UndoStack α) (state : σ) :
    List (Except ε Unit) × σ × UndoStack α :=
  let (outcomes, state) := runAll run stack.actions state
  (outcomes, state, empty)

end UndoStack

end Lightpay
