import Lightpay.Payment.Status
import Lightpay.Route

/-!
A payment with all of its attempts, the unit of storage. Its status is read off the record: a
settled attempt makes it succeeded, else a reason to give up makes it failed, else it is in flight.
-/

namespace Lightpay

structure CreationInfo where
  hash : PaymentHash
  value : Amount
  createdAt : UInt64
  request : Bytes
deriving DecidableEq

/-- One HTLC sent along one route. -/
structure AttemptInfo where
  id : UInt64
  sessionKey : SecretKey
  route : Route
  startedAt : UInt64
deriving DecidableEq

structure AttemptFailure where
  cause : FailureCause
  failedAt : UInt64
  source : Option UInt32
deriving DecidableEq

structure Settlement where
  preimage : Preimage
  settledAt : UInt64
deriving DecidableEq

inductive Outcome where
  | pending
  | failed (failure : AttemptFailure)
  | settled (settlement : Settlement)
deriving DecidableEq

structure Attempt where
  info : AttemptInfo
  outcome : Outcome
deriving DecidableEq

structure Payment where
  info : CreationInfo
  attempts : List Attempt
  giveUpReason : Option GiveUpReason
  /-- The attempt whose settlement came first. -/
  settledId : Option UInt64
deriving DecidableEq

namespace Attempt

def id (attempt : Attempt) : UInt64 := attempt.info.id

def failure? (attempt : Attempt) : Option AttemptFailure :=
  match attempt.outcome with
  | .failed failure => some failure
  | _ => none

def settlement? (attempt : Attempt) : Option Settlement :=
  match attempt.outcome with
  | .settled settlement => some settlement
  | _ => none

def Resolved (attempt : Attempt) : Prop := attempt.outcome ≠ .pending

instance (attempt : Attempt) : Decidable attempt.Resolved := inferInstanceAs (Decidable (_ ≠ _))

end Attempt

namespace Payment

def fresh (info : CreationInfo) : Payment := ⟨info, [], none, none⟩

def attempt? (payment : Payment) (id : UInt64) : Option Attempt :=
  payment.attempts.find? (·.id = id)

/-- The attempt whose settlement came first, as long as it is settled. -/
def settledAttempt? (payment : Payment) : Option Attempt :=
  (payment.settledId.bind payment.attempt?).filter (·.settlement?.isSome)

def status (payment : Payment) : Status :=
  if payment.settledAttempt?.isSome then .succeeded
  else if payment.giveUpReason.isSome then .failed
  else .inFlight

/-- Only the first call has an effect. -/
def recordSettle (payment : Payment) (id : UInt64) : Payment :=
  { payment with settledId := some (payment.settledId.getD id) }

/-- Sets the outcome of the first attempt with the id. -/
def setOutcomeIn (id : UInt64) (outcome : Outcome) : List Attempt → List Attempt
  | [] => []
  | attempt :: rest =>
    if attempt.id = id then { attempt with outcome } :: rest
    else attempt :: setOutcomeIn id outcome rest

def setOutcome (payment : Payment) (id : UInt64) (outcome : Outcome) : Payment :=
  { payment with attempts := setOutcomeIn id outcome payment.attempts }

def append (payment : Payment) (attempt : Attempt) : Payment :=
  { payment with attempts := payment.attempts ++ [attempt] }

def inFlightAttempts (payment : Payment) : List Attempt :=
  payment.attempts.filter fun attempt => ¬ attempt.Resolved

def lastId? (payment : Payment) : Option UInt64 :=
  (payment.attempts.map (·.id)).max?

/-- What attempts that have not failed lock in or have delivered, fees included. -/
def sentAmount (payment : Payment) : Amount :=
  .sum ((payment.attempts.filter (·.failure?.isNone)).map (·.info.route.amount))

end Payment

end Lightpay
