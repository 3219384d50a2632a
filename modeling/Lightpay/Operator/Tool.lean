import Lightpay.Operator.Report
import Lightpay.Operator.Settings

/-!
The operator tool as a whole: from its arguments and its environment to what it prints and the code
it ends with. What it needs of the file system is a parameter, so that the same tool runs on a disk
and on a tree of files in memory, and so is the reader of configurations. Logging is left out: log
lines go to the output too, in between the lines that are modelled here, and which of them do is for
the log level of the settings and the environment to say.
-/

namespace Lightpay.Operator

inductive Content where
  | text (text : String)
  | store (store : Store)
deriving DecidableEq

/-- The file system, as far as the tool uses it. -/
structure Host (m : Type → Type) where
  currentDirectory : m String
  makeDirectories : (path : String) → m (Except String Unit)
  read? : (path : String) → m (Option Content)
  /-- Writes a store to a file in a directory that exists; whether that worked. -/
  write : (path : String) → (store : Store) → m Bool

structure Outcome where
  code : UInt8
  /-- What was printed, without log lines. -/
  output : String
  errors : String
deriving DecidableEq, Repr

namespace Outcome

def success (output : String) : Outcome := ⟨0, output, ""⟩

def failure (message : String) : Outcome := ⟨1, "", "Error: " ++ message ++ "\n"⟩

def unusable (message : String) : Outcome := ⟨2, "", message⟩

end Outcome

namespace Tool

def version : String := "lnkit-paydb 0.1.0\n"

def usage : String :=
  "Usage: lnkit-paydb [-w <dir>] [-c <file>] list | status <hash> | in-flight | delete-resolved\n"

def workDirName : String := ".lnkit"

def configName : String := "config.toml"

/-- What stands behind the last dot of the name at the end of a path. A dot in front of the name
does not count. -/
def extension (path : String) : String :=
  let name := path.toList.reverse.takeWhile (· ≠ '/')
  let (reversed, stem) := name.span (· ≠ '.')
  if stem.length ≤ 1 then "" else String.ofList reversed.reverse

/-- A path without what stands behind its last name; none if that leads up or there is no name. -/
def named? (path : String) : Option String :=
  match (path.splitOn "/").reverse.dropWhile fun name => name = "" || name = "." with
  | [] => none
  | name :: above =>
    if name = ".." then none else some ("/".intercalate (name :: above).reverse)

def absolute [Monad m] (host : Host m) (path : String) : m String := do
  if path.toList.head? = some '/' then return path
  else return Settings.join (← host.currentDirectory) path

def firstFile? [Monad m] (host : Host m) (name : String) :
    List (Config.Format × String) → m (Option (Config.Format × Content))
  | [] => return none
  | (format, extension) :: rest => do
    match ← host.read? (name ++ "." ++ extension) with
    | some content => return some (format, content)
    | none => firstFile? host name rest

/-- The configuration with its format. A file of no known format counts as none. Where there is no
file, one is taken that has an extension added to its name. -/
def configFile? [Monad m] (host : Host m) (path : String) :
    m (Option (Config.Format × Content)) := do
  let path ← absolute host path
  match ← host.read? path with
  | some content =>
    return (Config.Format.ofExtension? (extension path)).map fun format => (format, content)
  | none =>
    match named? path with
    | none => return none
    | some name =>
      firstFile? host name
        (Config.Format.all.flatMap fun format => format.extensions.map fun e => (format, e))

def settings [Monad m] (host : Host m) (reader : Config.Reader)
    (environment : List (String × String)) (path : String) : ExceptT String m Settings := do
  let found :=
    match ← ExceptT.lift (configFile? host path) with
    | none => Settings.read? reader none environment
    | some (format, .text text) => Settings.read? reader (some (format, text)) environment
    | some (_, .store _) => none
  match found with
  | some settings => return settings
  | none => throw ("Unreadable configuration: " ++ path)

def openStore [Monad m] (host : Host m) (path : String) : ExceptT String m Store := do
  let found ←
    match ← host.read? path with
    | none => pure Store.empty
    | some (.text "") => pure Store.empty
    | some (.text _) => throw ("No payment store: " ++ path)
    | some (.store store) => pure store
  let store ← ExceptT.mk (pure (found.opened.mapError Store.OpenError.message))
  if ← host.write path store then return store
  else throw ("Cannot open " ++ path)

def workDir (invocation : Invocation) (environment : List (String × String)) :
    Except String String :=
  match invocation.workDir, environment.lookup "HOME" with
  | some directory, _ => .ok directory
  | none, some home => .ok (Settings.join home workDirName)
  | none, none => .error "Unknown home dir"

def perform [Monad m] (host : Host m) (reader : Config.Reader)
    (environment : List (String × String)) (invocation : Invocation) :
    ExceptT String m (List String) := do
  let workDir ← ExceptT.mk (pure (workDir invocation environment))
  ExceptT.mk (host.makeDirectories workDir)
  let configFile := invocation.configFile.getD (Settings.join workDir configName)
  let settings ← settings host reader environment configFile
  let path := settings.store workDir
  let store ← openStore host path
  let (lines, changed) ←
    ExceptT.mk (pure ((invocation.command.execute store).mapError Command.Fault.message))
  if changed = store then return lines
  else if ← host.write path changed then return lines
  else throw ("Cannot write " ++ path)

/-- Runs the tool; its log lines are no part of the outcome. -/
def run [Monad m] (host : Host m) (reader : Config.Reader) (environment : List (String × String))
    (arguments : List String) : m Outcome := do
  match CommandLine.read arguments with
  | .version => return .success version
  | .help => return .success usage
  | .unusable => return .unusable usage
  | .run invocation =>
    match ← (perform host reader environment invocation).run with
    | .ok lines => return .success (Report.lines lines)
    | .error message => return .failure message

end Tool

end Lightpay.Operator
