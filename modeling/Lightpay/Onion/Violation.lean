import Lightpay.Bytes

/-!
How a hop payload can break the rules on which records it holds.
-/

namespace Lightpay.Onion

inductive Violation.Kind where
  /-- A record that must be there is absent. -/
  | omitted
  /-- A record that must be absent is there. -/
  | included
  /-- A record that must be understood is not known. -/
  | required
deriving DecidableEq, Repr

structure Violation where
  type : UInt64
  kind : Violation.Kind
  finalHop : Bool
deriving DecidableEq, Repr

namespace Violation

def Kind.text : Kind → String
  | .omitted => "omitted"
  | .included => "included"
  | .required => "required"

def message (violation : Violation) : String :=
  "onion payload for " ++ (if violation.finalHop then "final" else "intermediate") ++ " hop " ++
    violation.kind.text ++ " record with type " ++ toString violation.type.toNat

end Violation

end Lightpay.Onion
