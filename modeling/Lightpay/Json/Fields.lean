import Lightpay.Json.Basic

/-!
Reading records out of JSON values. A record is an object, whose unknown members are ignored and
whose known ones stand once each, or an array of its fields in order. A name from a fixed list
stands as a string, or as the only member of an object with the value `null`.
-/

namespace Lightpay.Json

abbrev Fields := List (String × Json)

/-- The known fields of a record. In an array, `defaulted` fields at the end may be left out. -/
def fields? (required defaulted : List String) : Json → Option Fields
  | .obj members =>
    let known := members.filter fun m => m.1 ∈ required ++ defaulted
    if (known.map (·.1)).Nodup then some known else none
  | .arr items =>
    if required.length ≤ items.length ∧ items.length ≤ (required ++ defaulted).length then
      some ((required ++ defaulted).zip items)
    else none
  | _ => none

def Fields.get? (fields : Fields) (name : String) (read : Json → Option α) : Option α :=
  (fields.lookup name).bind read

def Fields.optional? (fields : Fields) (name : String) (read : Json → Option α) :
    Option (Option α) :=
  match fields.lookup name with
  | none => some none
  | some .null => some none
  | some value => (read value).map some

def ofOption (write : α → Json) : Option α → Json
  | none => .null
  | some a => write a

def bool? : Json → Option Bool
  | .bool b => some b
  | _ => none

def nat? (bound : Nat) : Json → Option Nat
  | .nat n => if n < bound then some n else none
  | _ => none

def u16? (value : Json) : Option UInt16 := (value.nat? UInt16.size).map UInt16.ofNat

def u32? (value : Json) : Option UInt32 := (value.nat? UInt32.size).map UInt32.ofNat

def u64? (value : Json) : Option UInt64 := (value.nat? UInt64.size).map UInt64.ofNat

def ofU16 (n : UInt16) : Json := .nat n.toNat

def ofU32 (n : UInt32) : Json := .nat n.toNat

def ofU64 (n : UInt64) : Json := .nat n.toNat

def str? : Json → Option String
  | .str s => some s
  | _ => none

def list? (read : Json → Option α) : Json → Option (List α)
  | .arr items => items.mapM read
  | _ => none

def name? : Json → Option String
  | .str s => some s
  | .obj [(s, .null)] => some s
  | _ => none

end Lightpay.Json
