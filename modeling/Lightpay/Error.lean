import Lightpay.Onion.Payload
import Lightpay.PaymentHash

/-!
Why an operation on payments is refused. None of the lifecycle errors means that the store is
damaged; `unreadable` and `mismatchedKey` do.
-/

namespace Lightpay

inductive Error where
  | notInitiated
  | inFlight
  | alreadyPaid
  | alreadySucceeded
  | alreadyFailed
  | attemptNotFound (id : UInt64)
  | attemptAlreadyResolved (id : UInt64)
  | duplicateAttempt (id : UInt64)
  | invalidPreimage
  | payload (error : Onion.PayloadError)
  /-- A hop after the first is reached over no channel. -/
  | noChannel (hop : Nat)
  | channelOutOfRange (id : ShortChannelId)
  | tlv (error : Tlv.Error)
  | dispatch (text : String)
  /-- The record to be stored belongs to another hash than its key. -/
  | mismatchedKey (key : PaymentHash)
  /-- A stored text is no record. -/
  | unreadable
  | custom (text : String)
deriving DecidableEq

def Error.message : Error → String
  | .notInitiated => "Payment not initiated"
  | .inFlight => "Payment is in flight"
  | .alreadyPaid => "Payment is already paid"
  | .alreadySucceeded => "Payment has already succeeded"
  | .alreadyFailed => "Payment has already failed"
  | .attemptNotFound id => "HTLC attempt \x60" ++ toString id.toNat ++ "\x60 not found"
  | .attemptAlreadyResolved id =>
    "HTLC attempt \x60" ++ toString id.toNat ++ "\x60 already resolved"
  | .duplicateAttempt id => "HTLC attempt \x60" ++ toString id.toNat ++ "\x60 already registered"
  | .invalidPreimage => "Preimage does not match payment hash"
  | .payload error => error.message
  | .noChannel hop => "Invalid route: hop " ++ toString hop ++ " has no channel id"
  | .channelOutOfRange id => "Short channel id \x60" ++ id.text ++ "\x60 out of range"
  | .tlv error => error.message
  | .dispatch text => "Attempt executor error: " ++ text
  | .mismatchedKey key =>
    "Stored record for \x60" ++ key.text ++ "\x60 has a mismatched payment hash"
  | .unreadable => "Stored record is not readable"
  | .custom text => "\x60" ++ text ++ "\x60"

end Lightpay
