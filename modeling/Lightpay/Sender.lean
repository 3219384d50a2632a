import Lightpay.Lifecycle
import Lightpay.NodeAddress
import Lightpay.Undo

/-!
Senders drive one payment each. An attempt is registered in the store before its HTLC is handed
to the network; when the hand-off fails, an undo action marks the attempt as failed. The clock is a
parameter, and the network is a script: what happens to the store during a hand-off, then how the
hand-off ends.
-/

namespace Lightpay

/-- What a hand-off does: operations on the store, then success or an error. -/
structure Script where
  ops : List Lifecycle.Op
  verdict : Except Error Unit

/-- Undoes a registration: fails an attempt that never left this node. -/
structure FailUndispatched where
  hash : PaymentHash
  id : UInt64
deriving DecidableEq

/-- An attempt that has its outcome already is left as it is. -/
def FailUndispatched.run (now : UInt64) (action : FailUndispatched) (store : Store) :
    Except Error Unit × Store :=
  match store.failAttempt action.hash action.id ⟨.internalError, now, none⟩ with
  | .ok (_, store) => (.ok (), store)
  | .error (.attemptAlreadyResolved _) => (.ok (), store)
  | .error e => (.error e, store)

def FailUndispatched.op (now : UInt64) (action : FailUndispatched) : Lifecycle.Op :=
  .failAttempt action.hash action.id ⟨.internalError, now, none⟩

structure Sender where
  hash : PaymentHash
  nextId : UInt64
  undo : UndoStack FailUndispatched
deriving DecidableEq

structure Launch where
  result : Except Error UInt64
  sender : Sender
  store : Store
  handedOff : Option AttemptInfo
  answers : List (Except Error Lifecycle.Answer)

namespace Sender

def start (store : Store) (info : CreationInfo) : Except Error (Sender × Store) :=
  (store.start info).map fun store => (⟨info.hash, 0, .empty⟩, store)

/-- Takes up a payment in flight; new attempts are numbered after all stored ones. -/
def resume (store : Store) (hash : PaymentHash) : Except Error Sender := do
  let payment ← store.fetch hash
  match payment.status with
  | .succeeded => throw .alreadySucceeded
  | .failed => throw .alreadyFailed
  | .inFlight | .unknown =>
    return ⟨hash, match payment.lastId? with | some id => id + 1 | none => 0, .empty⟩

/-- Registers the next attempt. Other callers may reach the store before it is handed over. -/
def register (sender : Sender) (store : Store) (now : UInt64) (route : Route)
    (sessionKey : SecretKey) : Except Error (AttemptInfo × Sender × Store) :=
  let info : AttemptInfo := ⟨sender.nextId, sessionKey, route, now⟩
  match store.register sender.hash info with
  | .error e => .error e
  | .ok (_, store) =>
    .ok (info, { sender with
      nextId := sender.nextId + 1, undo := sender.undo.push ⟨sender.hash, sender.nextId⟩ }, store)

def conclude (sender : Sender) (store : Store) (now : UInt64) :
    Except Error Unit → Sender × Store
  | .ok () => ({ sender with undo := sender.undo.clear }, store)
  | .error _ =>
    let (_, store, undo) := sender.undo.drain (FailUndispatched.run now) store
    ({ sender with undo }, store)

/-- Registers an attempt along a route and hands it to the network, when no other caller comes
in between. A failed hand-off is undone at the time `later`. -/
def launch (sender : Sender) (store : Store) (now later : UInt64)
    (network : AttemptInfo → Script) (route : Route) (sessionKey : SecretKey) : Launch :=
  match sender.register store now route sessionKey with
  | .error e => ⟨.error e, sender, store, none, []⟩
  | .ok (info, registered, store) =>
    let script := network info
    let (answers, store) := store.run script.ops
    let (concluded, store) := registered.conclude store later script.verdict
    ⟨script.verdict.map fun () => info.id, concluded, store, some info, answers⟩

def undone (sender : Sender) (now : UInt64) : Except Error Unit → List Lifecycle.Op
  | .ok () => []
  | .error _ => sender.undo.actions.map (·.op now)

/-- What a launch performs on the store: the registration, what the network does, and what is
undone. -/
def performed (sender : Sender) (store : Store) (now later : UInt64)
    (network : AttemptInfo → Script) (route : Route) (sessionKey : SecretKey) :
    List Lifecycle.Op :=
  .register sender.hash ⟨sender.nextId, sessionKey, route, now⟩ ::
    match sender.register store now route sessionKey with
    | .error _ => []
    | .ok (info, registered, _) =>
      (network info).ops ++ registered.undone later (network info).verdict

def payment (sender : Sender) (store : Store) : Except Error Payment :=
  store.fetch sender.hash

def failAttempt (sender : Sender) (store : Store) (id : UInt64) (failure : AttemptFailure) :
    Except Error (Payment × Store) :=
  store.failAttempt sender.hash id failure

def settle (sender : Sender) (store : Store) (now : UInt64) (id : UInt64) (preimage : Preimage) :
    Except Error (Payment × Store) :=
  store.settle sender.hash id ⟨preimage, now⟩

def giveUp (sender : Sender) (store : Store) (reason : GiveUpReason) :
    Except Error (Payment × Store) :=
  store.giveUp sender.hash reason

end Sender

def Payment.preimage? (payment : Payment) : Option Preimage :=
  (payment.settledAttempt?.bind Attempt.settlement?).map (·.preimage)

end Lightpay
