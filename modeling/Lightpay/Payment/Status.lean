/-!
Where a payment stands, and why payments and attempts fail, with their names.
-/

namespace Lightpay

inductive Status where
  | unknown
  | inFlight
  | succeeded
  /-- Given up; a fresh start is allowed. -/
  | failed
deriving DecidableEq, Repr

inductive GiveUpReason where
  | timeout
  | noRoute
  | error
  | incorrectDetails
  | insufficientBalance
deriving DecidableEq, Repr

inductive FailureCause where
  | unknown
  | unreadable
  /-- The attempt never left this node. -/
  | internalError
  | message
deriving DecidableEq, Repr

def Status.text : Status → String
  | .unknown => "unknown"
  | .inFlight => "in_flight"
  | .succeeded => "succeeded"
  | .failed => "failed"

def GiveUpReason.text : GiveUpReason → String
  | .timeout => "timeout"
  | .noRoute => "no_route"
  | .error => "error"
  | .incorrectDetails => "incorrect_payment_details"
  | .insufficientBalance => "insufficient_balance"

def FailureCause.text : FailureCause → String
  | .unknown => "unknown"
  | .unreadable => "unreadable"
  | .internalError => "internal_error"
  | .message => "message"

def Status.all : List Status := [.unknown, .inFlight, .succeeded, .failed]

def GiveUpReason.all : List GiveUpReason :=
  [.timeout, .noRoute, .error, .incorrectDetails, .insufficientBalance]

def FailureCause.all : List FailureCause := [.unknown, .unreadable, .internalError, .message]

def Status.ofText? (text : String) : Option Status := all.find? (·.text = text)

def GiveUpReason.ofText? (text : String) : Option GiveUpReason := all.find? (·.text = text)

def FailureCause.ofText? (text : String) : Option FailureCause := all.find? (·.text = text)

end Lightpay
