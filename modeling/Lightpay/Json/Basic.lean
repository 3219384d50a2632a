/-!
The values of a JSON text (RFC 8259). Members keep their order and may repeat a name; readers
decide what to do about that.
-/

namespace Lightpay

inductive Json where
  | null
  | bool (value : Bool)
  | nat (value : Nat)
  | str (value : String)
  | arr (items : List Json)
  | obj (members : List (String × Json))
  /-- A well-formed value that no record holds, kept as its text: a number with a sign, a
  fraction or an exponent, a string with an unpaired surrogate, an object with such a name. -/
  | foreign (text : List Char)
deriving Inhabited

end Lightpay
