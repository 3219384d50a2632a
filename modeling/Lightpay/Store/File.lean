import Lightpay.Json.Fields
import Lightpay.Json.Parser
import Lightpay.Json.Printer
import Lightpay.Store.Basic

/-!
The file that a store is kept in: a line that marks it, then an object with the version and the
texts under their hashes.
-/

namespace Lightpay.Store

def toJson (store : Store) : Json :=
  .obj [("version", Json.ofOption .str store.version),
    ("payments", .obj (store.payments.entries.map fun entry => (entry.key.text, .str entry.text)))]

def fileMark : String := "payment store\n"

def print (store : Store) : String :=
  fileMark ++ store.toJson.print

def entry? (member : String × Json) : Option Entry :=
  match PaymentHash.parse member.1, member.2 with
  | .ok key, .str text => some ⟨key, text⟩
  | _, _ => none

def table? : Json → Option Table
  | .obj members => do
    let entries ← members.mapM entry?
    return entries.foldl (fun table entry => table.insert entry.key entry.text) .empty
  | _ => none

def ofJson? (value : Json) : Option Store := do
  let fields ← value.fields? ["version", "payments"] []
  let version ← fields.optional? "version" Json.str?
  let payments ← fields.get? "payments" table?
  return { version, payments }

def parse? (text : String) : Option Store :=
  let mark := fileMark.toList
  let cs := text.toList
  if mark.isPrefixOf cs then
    (Json.parse? (String.ofList (cs.drop mark.length))).bind ofJson?
  else none

end Lightpay.Store
