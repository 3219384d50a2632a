/-!
The version a store is marked with: a decimal number of 32 bits, kept as text.
-/

namespace Lightpay.Store

inductive VersionFault where
  | empty
  | invalidDigit
  | tooLarge
deriving DecidableEq, Repr

def VersionFault.message : VersionFault → String
  | .empty => "cannot parse integer from empty string"
  | .invalidDigit => "invalid digit found in string"
  | .tooLarge => "number too large to fit in target type"

/-- Goes on reading digits after a number; the first fault from the left counts. -/
def readDigits (number : Nat) : List Char → Except VersionFault UInt32
  | [] => .ok (UInt32.ofNat number)
  | c :: rest =>
    if ¬ c.isDigit then .error .invalidDigit
    else
      let next := 10 * number + (c.toNat - 48)
      if UInt32.size ≤ next then .error .tooLarge else readDigits next rest

def readVersion (text : String) : Except VersionFault UInt32 :=
  match text.toList with
  | [] => .error .empty
  | ['+'] => .error .invalidDigit
  | '+' :: digits => readDigits 0 digits
  | digits => readDigits 0 digits

end Lightpay.Store
