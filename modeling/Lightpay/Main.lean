import Lightpay.Config.Reader
import Lightpay.Operator.Tool
import Lightpay.Store.File

/-!
The operator tool on the disk.
-/

open Lightpay Lightpay.Operator

namespace Lightpay.Main

def readText? (path : String) : IO (Option String) := do
  try return some (← IO.FS.readFile path)
  catch _ => return none

def disk : Host IO where
  currentDirectory := return (← IO.currentDir).toString
  makeDirectories path := do
    if path = "" then return .ok ()
    try
      IO.FS.createDirAll path
      return .ok ()
    catch e => return .error (toString e)
  read? path := do
    return (← readText? path).map fun text =>
      match Store.parse? text with
      | some store => .store store
      | none => .text text
  write path store := do
    try
      IO.FS.writeFile path store.print
      return true
    catch _ => return false

def assigned? (line : String) : Option (String × String) :=
  match line.splitOn "=" with
  | name :: part :: parts => some (name, "=".intercalate (part :: parts))
  | _ => none

/-- All variables where the system lists them, else those with the usual names. -/
def environment : IO (List (String × String)) := do
  match ← readText? "/proc/self/environ" with
  | some text => return (text.splitOn "\x00").filterMap assigned?
  | none =>
    ["HOME", "LNKIT__DATABASE__PATH", "LNKIT__LOG__LEVEL"].filterMapM fun name => do
      return (← IO.getEnv name).map fun value => (name, value)

end Lightpay.Main

def main (arguments : List String) : IO UInt32 := do
  let outcome ←
    Tool.run Lightpay.Main.disk Config.Format.read? (← Lightpay.Main.environment) arguments
  IO.print outcome.output
  IO.eprint outcome.errors
  return outcome.code.toUInt32
