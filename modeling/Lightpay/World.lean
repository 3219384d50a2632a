import Lightpay.Sender

/-!
Any number of senders over one store, with other callers between all of their steps. A launch takes
three: the attempt is registered, it is handed to the network, and the hand-off ends. Nothing is
locked in between, and the store is not read again before the hand-off.
-/

namespace Lightpay

inductive Stage where
  | idle
  | registered (info : AttemptInfo)
  | handedOff (info : AttemptInfo)

def Stage.attempt? : Stage → Option AttemptInfo
  | .idle => none
  | .registered info | .handedOff info => some info

structure Worker where
  sender : Sender
  stage : Stage

structure World where
  store : Store
  workers : String → Option Worker

/-- What can happen: an operation from elsewhere, or a step of the sender with the name. -/
inductive Move where
  | control (op : Lifecycle.Op)
  | start (name : String) (info : CreationInfo)
  | resume (name : String) (hash : PaymentHash)
  | register (name : String) (now : UInt64) (route : Route) (sessionKey : SecretKey)
  | handOff (name : String)
  | conclude (name : String) (now : UInt64) (verdict : Except Error Unit)
  | failAttempt (name : String) (id : UInt64) (failure : AttemptFailure)
  | settle (name : String) (now : UInt64) (id : UInt64) (preimage : Preimage)
  | giveUp (name : String) (reason : GiveUpReason)

def Worker.awaiting? (worker : Worker) : Option (PaymentHash × AttemptInfo) :=
  match worker.stage with
  | .registered info => some (worker.sender.hash, info)
  | _ => none

namespace World

def blank (version : Option String) : World := ⟨⟨version, .empty⟩, fun _ => none⟩

/-- The sender with the name, unless it is in the middle of a launch. -/
def idle? (world : World) (name : String) : Option Sender :=
  match world.workers name with
  | some ⟨sender, .idle⟩ => some sender
  | _ => none

def set (world : World) (name : String) (worker : Option Worker) : String → Option Worker :=
  fun other => if other = name then worker else world.workers other

/-- A name that is taken anew forgets its sender, even in the middle of a launch. Settling and
giving up use the sender up, also when they are refused. -/
def step (world : World) : Move → World
  | .control op => { world with store := (world.store.step op).2 }
  | .start name info =>
    match Sender.start world.store info with
    | .ok (sender, store) => ⟨store, world.set name (some ⟨sender, .idle⟩)⟩
    | .error _ => world
  | .resume name hash =>
    match Sender.resume world.store hash with
    | .ok sender => { world with workers := world.set name (some ⟨sender, .idle⟩) }
    | .error _ => world
  | .register name now route sessionKey =>
    match world.idle? name with
    | none => world
    | some sender =>
      match sender.register world.store now route sessionKey with
      | .ok (info, sender, store) => ⟨store, world.set name (some ⟨sender, .registered info⟩)⟩
      | .error _ => world
  | .handOff name =>
    match world.workers name with
    | some ⟨sender, .registered info⟩ =>
      { world with workers := world.set name (some ⟨sender, .handedOff info⟩) }
    | _ => world
  | .conclude name now verdict =>
    match world.workers name with
    | some ⟨sender, .handedOff _⟩ =>
      let (sender, store) := sender.conclude world.store now verdict
      ⟨store, world.set name (some ⟨sender, .idle⟩)⟩
    | _ => world
  | .failAttempt name id failure =>
    match world.idle? name with
    | none => world
    | some sender =>
      { world with store := world.store.committed (sender.failAttempt world.store id failure) }
  | .settle name now id preimage =>
    match world.idle? name with
    | none => world
    | some sender =>
      ⟨world.store.committed (sender.settle world.store now id preimage), world.set name none⟩
  | .giveUp name reason =>
    match world.idle? name with
    | none => world
    | some sender =>
      ⟨world.store.committed (sender.giveUp world.store reason), world.set name none⟩

def run (world : World) (moves : List Move) : World := moves.foldl step world

def Reachable (world : World) : Prop := ∃ version moves, world = (blank version).run moves

/-- What a move performs on the store, refused operations included. -/
def performed (world : World) : Move → List Lifecycle.Op
  | .control op => [op]
  | .start _ info => [.start info]
  | .resume _ _ => []
  | .register name now route sessionKey =>
    match world.idle? name with
    | none => []
    | some sender => [.register sender.hash ⟨sender.nextId, sessionKey, route, now⟩]
  | .handOff _ => []
  | .conclude name now verdict =>
    match world.workers name with
    | some ⟨sender, .handedOff _⟩ => sender.undone now verdict
    | _ => []
  | .failAttempt name id failure =>
    match world.idle? name with
    | none => []
    | some sender => [.failAttempt sender.hash id failure]
  | .settle name now id preimage =>
    match world.idle? name with
    | none => []
    | some sender => [.settle sender.hash id ⟨preimage, now⟩]
  | .giveUp name reason =>
    match world.idle? name with
    | none => []
    | some sender => [.giveUp sender.hash reason]

def history (world : World) : List Move → List Lifecycle.Op
  | [] => []
  | move :: moves => world.performed move ++ (world.step move).history moves

/-- The attempt that a move registers for its sender, and the hash that it is for. -/
def registered? (world : World) : Move → Option (PaymentHash × AttemptInfo)
  | .register name now route sessionKey =>
    match world.idle? name with
    | none => none
    | some sender =>
      match sender.register world.store now route sessionKey with
      | .ok (info, _) => some (sender.hash, info)
      | .error _ => none
  | _ => none

/-- The attempt that a move hands to the network, and the hash that it is sent for. -/
def dispatched? (world : World) : Move → Option (PaymentHash × AttemptInfo)
  | .handOff name => (world.workers name).bind Worker.awaiting?
  | _ => none

end World

end Lightpay
