/-!
What can be wrong with a stream of records or with the value of one.
-/

namespace Lightpay.Tlv

inductive Error where
  | unexpectedEnd
  | nonCanonical
  | unordered (previous current : UInt64)
  | invalidLength (type : UInt64) (length : Nat)
  | nonMinimal (type : UInt64)
  | unknownRequired (type : UInt64)
deriving DecidableEq, Repr

def Error.message : Error → String
  | .unexpectedEnd => "Unexpected end of TLV stream"
  | .nonCanonical => "Non-canonical BigSize encoding"
  | .unordered previous current =>
    "TLV type \x60" ++ toString current.toNat ++ "\x60 not greater than previous type \x60" ++
      toString previous.toNat ++ "\x60"
  | .invalidLength type length =>
    "Invalid length \x60" ++ toString length ++ "\x60 for record type \x60" ++
      toString type.toNat ++ "\x60"
  | .nonMinimal type =>
    "Truncated integer for record type \x60" ++ toString type.toNat ++
      "\x60 is not minimally encoded"
  | .unknownRequired type => "Unknown required type \x60" ++ toString type.toNat ++ "\x60"

end Lightpay.Tlv
