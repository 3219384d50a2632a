import Lightpay.Store.Basic

/-!
The lifecycle of payments. A payment starts in flight, gathers attempts, and ends succeeded when
one of them settles, or failed when it is given up; only a failed one may start afresh. Each
operation is one transaction on the store.
-/

namespace Lightpay.Lifecycle

def start (info : CreationInfo) : Transition
  | none => .ok (.fresh info)
  | some payment =>
    match payment.status with
    | .inFlight => .error .inFlight
    | .succeeded => .error .alreadyPaid
    | .failed | .unknown => .ok (.fresh info)

def onStarted (transition : Payment → Except Error Payment) : Transition
  | none => .error .notInitiated
  | some payment => transition payment

def register (info : AttemptInfo) : Transition :=
  onStarted fun payment =>
    match payment.status with
    | .succeeded => .error .alreadySucceeded
    | .failed => .error .alreadyFailed
    | .inFlight | .unknown =>
      if (payment.attempt? info.id).isSome then .error (.duplicateAttempt info.id)
      else .ok (payment.append ⟨info, .pending⟩)

def resolve (payment : Payment) (id : UInt64) (outcome : Outcome) : Except Error Payment :=
  match payment.attempt? id with
  | none => .error (.attemptNotFound id)
  | some attempt =>
    if attempt.Resolved then .error (.attemptAlreadyResolved id)
    else .ok (payment.setOutcome id outcome)

/-- Failures are recorded in any status, and never change it. -/
def failAttempt (id : UInt64) (failure : AttemptFailure) : Transition :=
  onStarted fun payment => resolve payment id (.failed failure)

/-- Gives a payment up; a later reason replaces an earlier one. -/
def giveUp (reason : GiveUpReason) : Transition :=
  onStarted fun payment =>
    if payment.status = .succeeded then .error .alreadySucceeded
    else .ok { payment with giveUpReason := some reason }

/-- Settles an attempt. The first to settle stays the settlement of the payment, and a payment
that had been given up succeeds after all. -/
def settle (hash : PaymentHash) (id : UInt64) (settlement : Settlement) : Transition :=
  onStarted fun payment =>
    if ¬ settlement.preimage.Matches hash then .error .invalidPreimage
    else do
      let resolved ← resolve payment id (.settled settlement)
      return { resolved.recordSettle id with giveUpReason := none }

inductive Op where
  | start (info : CreationInfo)
  | register (hash : PaymentHash) (info : AttemptInfo)
  | failAttempt (hash : PaymentHash) (id : UInt64) (failure : AttemptFailure)
  | giveUp (hash : PaymentHash) (reason : GiveUpReason)
  | settle (hash : PaymentHash) (id : UInt64) (settlement : Settlement)
  | fetch (hash : PaymentHash)
  | status (hash : PaymentHash)
  | list
  | listInFlight
  /-- Removes every payment that is not in flight. -/
  | delete
deriving DecidableEq

inductive Answer where
  | done
  | payment (payment : Payment)
  | payments (payments : List Payment)
  | status (status : Status)
  | count (n : Nat)
deriving DecidableEq

end Lifecycle

namespace Store

open Lifecycle

def start (store : Store) (info : CreationInfo) : Except Error Store :=
  (store.update info.hash (Lifecycle.start info)).map (·.2)

def register (store : Store) (hash : PaymentHash) (info : AttemptInfo) :
    Except Error (Payment × Store) :=
  store.update hash (Lifecycle.register info)

def failAttempt (store : Store) (hash : PaymentHash) (id : UInt64) (failure : AttemptFailure) :
    Except Error (Payment × Store) :=
  store.update hash (Lifecycle.failAttempt id failure)

def giveUp (store : Store) (hash : PaymentHash) (reason : GiveUpReason) :
    Except Error (Payment × Store) :=
  store.update hash (Lifecycle.giveUp reason)

def settle (store : Store) (hash : PaymentHash) (id : UInt64) (settlement : Settlement) :
    Except Error (Payment × Store) :=
  store.update hash (Lifecycle.settle hash id settlement)

def fetch (store : Store) (hash : PaymentHash) : Except Error Payment := do
  match ← store.get? hash with
  | some payment => return payment
  | none => throw .notInitiated

def status (store : Store) (hash : PaymentHash) : Except Error Status := do
  match ← store.get? hash with
  | some payment => return payment.status
  | none => return .unknown

def allInFlight (store : Store) : Except Error (List Payment) :=
  store.all.map fun payments => payments.filter (·.status = .inFlight)

def deleteResolved (store : Store) : Except Error (Nat × Store) :=
  store.remove (·.status ≠ .inFlight)

/-- Carries out an operation; refused, it leaves no store. -/
def apply (store : Store) : Op → Except Error (Answer × Store)
  | .start info => (store.start info).map fun store => (.done, store)
  | .register hash info => (store.register hash info).map fun (p, store) => (.payment p, store)
  | .failAttempt hash id failure =>
    (store.failAttempt hash id failure).map fun (p, store) => (.payment p, store)
  | .giveUp hash reason => (store.giveUp hash reason).map fun (p, store) => (.payment p, store)
  | .settle hash id settlement =>
    (store.settle hash id settlement).map fun (p, store) => (.payment p, store)
  | .fetch hash => (store.fetch hash).map fun p => (.payment p, store)
  | .status hash => (store.status hash).map fun s => (.status s, store)
  | .list => store.all.map fun ps => (.payments ps, store)
  | .listInFlight => store.allInFlight.map fun ps => (.payments ps, store)
  | .delete => store.deleteResolved.map fun (n, store) => (.count n, store)

/-- Carries out an operation; refused, it changes nothing. -/
def step (store : Store) (op : Op) : Except Error Answer × Store :=
  match store.apply op with
  | .ok (answer, store) => (.ok answer, store)
  | .error e => (.error e, store)

def run (store : Store) : List Op → List (Except Error Answer) × Store
  | [] => ([], store)
  | op :: ops =>
    let (answer, store) := store.step op
    let (answers, store) := store.run ops
    (answer :: answers, store)

end Store

end Lightpay
