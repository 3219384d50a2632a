import Lightpay.Config.Basic
import Lightpay.Json.Number
import Lightpay.Json.Parser

/-!
Reading configurations from JSON texts. Of two members with one name the last counts, and the text
is an object as a whole.
-/

namespace Lightpay.Json

mutual

def config? : (depth : Nat) → Json → Option Config
  | _, .null => some .absent
  | _, .bool b => some (.text (if b then "true" else "false"))
  | _, .nat n => (Number.text? (Nat.toDigits 10 n)).map fun text => .text (String.ofList text)
  | _, .str s => some (.text s)
  | 0, .arr _ => none
  | 0, .obj _ => none
  | depth + 1, .arr items => (configItems? depth items).map .list
  | depth + 1, .obj members => (configMembers? depth [] members).map .table
  | _, .foreign ('"' :: _) => none
  | _, .foreign ('\x7b' :: _) => none
  | _, .foreign text => (Number.text? text).map fun text => .text (String.ofList text)

def configItems? (depth : Nat) : List Json → Option (List Config)
  | [] => some []
  | item :: rest => do
    let found ← config? depth item
    return found :: (← configItems? depth rest)

def configMembers? (depth : Nat) (done : Config.Entries) :
    List (String × Json) → Option Config.Entries
  | [] => some done
  | (name, value) :: rest => do
    let found ← config? depth value
    configMembers? depth (Config.put name found done) rest

end

def greatestDepth : Nat := 127

def entries? (text : String) : Option Config.Entries := do
  match ← config? greatestDepth (← parse? text) with
  | .table entries => some entries
  | _ => none

end Lightpay.Json
