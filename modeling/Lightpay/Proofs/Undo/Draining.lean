import Lightpay.Undo
import Mathlib.Data.List.Basic

/-! Undo stacks over time. Pushes, drains and clears come in any order, and the actions may fail.
A drain runs what was pushed since the last drain or clear, newest first, and nothing that left
the stack comes back. Actions are told apart by the numbers of the steps that pushed them. -/

namespace Lightpay.UndoStack

variable {α β ε σ : Type}

/-- What can be done to an undo stack. -/
inductive Step (α : Type) where
  | push (action : α)
  | drain
  | clear
deriving DecidableEq

def Step.map (f : α → β) : Step α → Step β
  | .push action => .push (f action)
  | .drain => .drain
  | .clear => .clear

/-- Notes down each action that is run, whatever comes of it. -/
def logged (run : α → σ → Except ε Unit × σ) (action : α) (before : List α × σ) :
    Except ε Unit × List α × σ :=
  let (outcome, state) := run action before.2
  (outcome, before.1 ++ [action], state)

/-- Takes a step: the actions that it ran in their order, the state and the stack. -/
def step (run : α → σ → Except ε Unit × σ) (stack : UndoStack α) (state : σ) :
    Step α → List α × σ × UndoStack α
  | .push action => ([], state, stack.push action)
  | .drain =>
    let (_, (ran, state), stack) := stack.drain (logged run) ([], state)
    (ran, state, stack)
  | .clear => ([], state, stack.clear)

/-- Takes steps one after the other: what each of them ran, and what they leave. -/
def steps (run : α → σ → Except ε Unit × σ) (stack : UndoStack α) (state : σ) :
    List (Step α) → List (List α) × σ × UndoStack α
  | [] => ([], state, stack)
  | next :: rest =>
    let (ran, state, stack) := stack.step run state next
    let (later, reached) := steps run stack state rest
    (ran :: later, reached)

/-- The steps, with the number of the step on every action that is pushed. -/
def numbered (taken : List (Step α)) : List (Step (Nat × α)) :=
  taken.mapIdx fun place => Step.map (place, ·)

/-- The actions that the step at a place ran, in their order. -/
def ranAt (run : α → σ → Except ε Unit × σ) (state : σ) (taken : List (Step α)) (place : Nat) :
    List (Nat × α) :=
  ((empty.steps (fun action => run action.2) state (numbered taken)).1[place]?).getD []

/-- The action was pushed at a place before `now`, and since then there were only pushes. -/
def Awaits (taken : List (Step α)) (now place : Nat) (action : α) : Prop :=
  place < now ∧ taken[place]? = some (.push action) ∧
    ∀ between, place < between → between < now → ∃ other, taken[between]? = some (.push other)

namespace Step

/-- What the step runs of the actions on the stack. -/
def runs : Step α → List α → List α
  | .drain, actions => actions
  | _, _ => []

/-- What the step leaves on the stack. -/
def leaves (actions : List α) : Step α → List α
  | .push action => action :: actions
  | _ => []

end Step

theorem runAll_logged (run : α → σ → Except ε Unit × σ) (actions log : List α) (state : σ) :
    runAll (logged run) actions (log, state) =
      ((runAll run actions state).1, log ++ actions, (runAll run actions state).2) := by
  induction actions generalizing log state with
  | nil => simp [runAll]
  | cons action rest ih => simp [runAll, logged, ih]

theorem step_eq (run : α → σ → Except ε Unit × σ) (stack : UndoStack α) (state : σ)
    (next : Step α) :
    ∃ reached, stack.step run state next =
      (next.runs stack.actions, reached, ⟨next.leaves stack.actions⟩) := by
  cases next with
  | push action => exact ⟨state, rfl⟩
  | drain =>
    refine ⟨(runAll run stack.actions state).2, ?_⟩
    rw [step, drain, runAll_logged]
    rfl
  | clear => exact ⟨state, rfl⟩

/-- Each step meets what the steps before it left, whatever the actions did. -/
theorem ran_steps (run : α → σ → Except ε Unit × σ) (stack : UndoStack α) (state : σ)
    (taken : List (Step α)) (place : Nat) :
    (stack.steps run state taken).1[place]? = taken[place]?.map fun next =>
      next.runs ((taken.take place).foldl Step.leaves stack.actions) := by
  induction taken generalizing stack state place with
  | nil => rfl
  | cons next rest ih =>
    obtain ⟨reached, hstep⟩ := step_eq run stack state next
    rw [steps, hstep]
    cases place with
    | zero => rfl
    | succ place => exact ih _ reached place

theorem left_steps (run : α → σ → Except ε Unit × σ) (stack : UndoStack α) (state : σ)
    (taken : List (Step α)) :
    (stack.steps run state taken).2.2 = ⟨taken.foldl Step.leaves stack.actions⟩ := by
  induction taken generalizing stack state with
  | nil => rfl
  | cons next rest ih =>
    obtain ⟨reached, hstep⟩ := step_eq run stack state next
    rw [steps, hstep]
    exact ih _ reached

theorem map_numbered (taken : List (Step α)) :
    (numbered taken).map (Step.map Prod.snd) = taken := by
  refine List.ext_getElem? fun place => ?_
  rw [List.getElem?_map, numbered, List.getElem?_mapIdx, Option.map_map]
  have hmap : ∀ next : Step α, (next.map (place, ·)).map Prod.snd = next := by
    intro next
    cases next <;> rfl
  cases taken[place]? with
  | none => rfl
  | some next => exact congrArg some (hmap next)

theorem foldl_leaves_map (f : α → β) (taken : List (Step α)) (actions : List α) :
    (taken.map (Step.map f)).foldl Step.leaves (actions.map f) =
      (taken.foldl Step.leaves actions).map f := by
  induction taken generalizing actions with
  | nil => rfl
  | cons next rest ih =>
    have hleaves : (next.map f).leaves (actions.map f) = (next.leaves actions).map f := by
      cases next <;> rfl
    rw [List.map_cons, List.foldl_cons, List.foldl_cons, hleaves, ih]

theorem steps_map (run : β → σ → Except ε Unit × σ) (f : α → β) (state : σ)
    (taken : List (Step α)) :
    (empty.steps run state (taken.map (Step.map f))).1 =
      ((empty.steps (fun action => run (f action)) state taken).1).map (List.map f) := by
  refine List.ext_getElem? fun place => ?_
  rw [List.getElem?_map, ran_steps, ran_steps, List.getElem?_map, ← List.map_take,
    Option.map_map, Option.map_map]
  have hleft := foldl_leaves_map f (taken.take place) []
  have hruns : ∀ next : Step α,
      (next.map f).runs (((taken.take place).map (Step.map f)).foldl Step.leaves []) =
        (next.runs ((taken.take place).foldl Step.leaves [])).map f := by
    intro next
    cases next with
    | push action => rfl
    | drain => exact hleft
    | clear => rfl
  cases taken[place]? with
  | none => rfl
  | some next => exact congrArg some (hruns next)

variable {taken : List (Step α)} {now place : Nat} {action : α}

theorem awaits_succ : Awaits taken (now + 1) place action ↔
    place = now ∧ taken[now]? = some (.push action) ∨
      Awaits taken now place action ∧ ∃ other, taken[now]? = some (.push other) := by
  constructor
  · rintro ⟨hplace, hpush, hbetween⟩
    rcases Nat.lt_succ_iff_lt_or_eq.1 hplace with hlt | rfl
    · exact .inr ⟨⟨hlt, hpush, fun between hafter hbefore =>
        hbetween between hafter (Nat.lt_succ_of_lt hbefore)⟩,
        hbetween now hlt (Nat.lt_succ_self now)⟩
    · exact .inl ⟨rfl, hpush⟩
  · rintro (⟨rfl, hpush⟩ | ⟨⟨hplace, hpush, hbetween⟩, hnow⟩)
    · refine ⟨Nat.lt_succ_self place, hpush, fun between hafter hbefore => ?_⟩
      exact absurd hafter (Nat.not_lt.2 (Nat.lt_succ_iff.1 hbefore))
    · refine ⟨Nat.lt_succ_of_lt hplace, hpush, fun between hafter hbefore => ?_⟩
      rcases Nat.lt_succ_iff_lt_or_eq.1 hbefore with hlt | rfl
      · exact hbetween between hafter hlt
      · exact hnow

/-- The stack before a step, the newest action first. -/
def waiting (taken : List (Step α)) (now : Nat) : List (Nat × α) :=
  ((numbered taken).take now).foldl Step.leaves []

theorem waiting_succ {next : Step α} (hnext : taken[now]? = some next) :
    waiting taken (now + 1) = (next.map (now, ·)).leaves (waiting taken now) := by
  have hnumbered : (numbered taken)[now]? = some (next.map (now, ·)) := by
    rw [numbered, List.getElem?_mapIdx, hnext, Option.map_some]
  rw [waiting, List.take_add_one, hnumbered, List.foldl_append]
  rfl

/-- What is on the stack is what awaits its run, each action once and in the order of the pushes. -/
theorem waiting_sound (hnow : now ≤ taken.length) :
    (waiting taken now).Pairwise (·.1 > ·.1) ∧
      ∀ place action, (place, action) ∈ waiting taken now ↔ Awaits taken now place action := by
  -- A push comes in front of what waits already; nothing waits after any other step.
  induction now with
  | zero => exact ⟨.nil, fun place action => iff_of_false nofun fun h => nomatch h.1⟩
  | succ now ih =>
    obtain ⟨hsorted, hmem⟩ := ih (Nat.le_of_succ_le hnow)
    obtain ⟨next, hnext⟩ : ∃ next, taken[now]? = some next := ⟨_, List.getElem?_eq_getElem hnow⟩
    rw [waiting_succ hnext]
    cases next with
    | push new =>
      refine ⟨List.pairwise_cons.2 ⟨fun earlier hearlier => ?_, hsorted⟩,
        fun place action => ?_⟩
      · exact ((hmem earlier.1 earlier.2).1 hearlier).1
      · rw [awaits_succ, hnext, ← hmem]
        simp [Step.map, Step.leaves, eq_comm]
    | drain =>
      refine ⟨.nil, fun place action => iff_of_false nofun ?_⟩
      rw [awaits_succ, hnext]
      simp
    | clear =>
      refine ⟨.nil, fun place action => iff_of_false nofun ?_⟩
      rw [awaits_succ, hnext]
      simp

variable (run : α → σ → Except ε Unit × σ) (state : σ)

theorem ranAt_eq (taken : List (Step α)) (now : Nat) :
    ranAt run state taken now = (taken[now]?.map fun next =>
      (next.map (now, ·)).runs (waiting taken now)).getD [] := by
  rw [ranAt, ran_steps, numbered, List.getElem?_mapIdx, Option.map_map]
  rfl

theorem mem_ranAt_iff : (place, action) ∈ ranAt run state taken now ↔
    taken[now]? = some .drain ∧ Awaits taken now place action := by
  rw [ranAt_eq]
  cases hnext : taken[now]? with
  | none => simp
  | some next =>
    have hnow : now ≤ taken.length := Nat.le_of_lt (List.getElem?_eq_some_iff.1 hnext).1
    cases next with
    | push other => simp [Step.map, Step.runs]
    | drain => simpa [Step.map, Step.runs] using (waiting_sound hnow).2 place action
    | clear => simp [Step.map, Step.runs]

theorem ordered_ranAt (taken : List (Step α)) (now : Nat) :
    (ranAt run state taken now).Pairwise (·.1 > ·.1) := by
  rw [ranAt_eq]
  cases hnext : taken[now]? with
  | none => exact .nil
  | some next =>
    cases next with
    | push other => exact .nil
    | drain => exact (waiting_sound (Nat.le_of_lt (List.getElem?_eq_some_iff.1 hnext).1)).1
    | clear => exact .nil

theorem map_ranAt (taken : List (Step α)) (now : Nat) :
    (ranAt run state taken now).map Prod.snd = ((empty.steps run state taken).1[now]?).getD [] := by
  have hsteps := steps_map run Prod.snd state (numbered taken)
  rw [map_numbered] at hsteps
  rw [hsteps, List.getElem?_map, ranAt]
  cases (empty.steps (fun action => run action.2) state (numbered taken)).1[now]? <;> rfl

theorem left_drain (hnow : taken[now]? = some .drain) :
    (empty.steps run state (taken.take (now + 1))).2.2 = empty := by
  rw [left_steps, List.take_add_one, hnow, List.foldl_append]
  rfl

/-- An action that was run or cleared is off the stack, because only pushes keep it there. -/
theorem not_mem_ranAt {later : Nat} (hlater : now < later)
    (hgone : (place, action) ∈ ranAt run state taken now ∨
      taken[now]? = some .clear ∧ place < now) :
    (place, action) ∉ ranAt run state taken later := by
  intro hmem
  obtain ⟨_, _, _, hpushes⟩ := (mem_ranAt_iff run state).1 hmem
  rcases hgone with hran | ⟨hclear, hplace⟩
  · obtain ⟨hdrain, hplace, _⟩ := (mem_ranAt_iff run state).1 hran
    obtain ⟨other, hpush⟩ := hpushes now hplace hlater
    cases hdrain.symm.trans hpush
  · obtain ⟨other, hpush⟩ := hpushes now hplace hlater
    cases hclear.symm.trans hpush

/-- Whatever the actions come to, a drain runs those that were pushed since the last drain or
clear, each once and the newest first, and leaves nothing. What was run or cleared is not run
again. -/
theorem drained_once (taken : List (Step α)) (now : Nat) :
    (ranAt run state taken now).map Prod.snd = ((empty.steps run state taken).1[now]?).getD [] ∧
    (ranAt run state taken now).Pairwise (·.1 > ·.1) ∧
    (∀ place action, (place, action) ∈ ranAt run state taken now ↔
      taken[now]? = some .drain ∧ Awaits taken now place action) ∧
    (taken[now]? = some .drain → (empty.steps run state (taken.take (now + 1))).2.2 = empty) ∧
    ∀ later place action, now < later →
      (place, action) ∈ ranAt run state taken now ∨ taken[now]? = some .clear ∧ place < now →
        (place, action) ∉ ranAt run state taken later :=
  ⟨map_ranAt run state taken now, ordered_ranAt run state taken now,
    fun _ _ => mem_ranAt_iff run state, left_drain run state,
    fun _ _ _ => not_mem_ranAt run state⟩

example : (empty.steps (fun (action : Nat) (ran : Nat) =>
    (if action = 2 then .error () else .ok (), ran + 1)) 0
    [.push 1, .push 2, .push 3, .drain, .push 4, .clear, .drain]).1 =
    [[], [], [], [3, 2, 1], [], [], []] := rfl

end Lightpay.UndoStack
