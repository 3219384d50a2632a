import Lightpay.Config.Format
import Lightpay.Config.Place

/-!
Settings of the operator tool: where the store is and how much is logged. They are read from a file,
if there is one, and then from variables of the environment, which win.
-/

namespace Lightpay.Operator

structure Settings where
  /-- How much is logged. Logging is left out of what the tool does, so nothing else asks for it. -/
  logLevel : String
  storePath : Option String
deriving DecidableEq, Repr

namespace Settings

def defaultLogLevel : String := "info"

def storeName : String := "payments.redb"

def variableMark : List Char := "lnkit__".toList

def join (directory name : String) : String :=
  match directory.toList.getLast? with
  | none | some '/' => directory ++ name
  | some _ => directory ++ "/" ++ name

/-- The small letter. Of the other alphabets only the Kelvin sign has one that a name may hold. -/
def small (c : Char) : Char :=
  if c = '\u212a' then 'k' else c.toLower

/-- Two underscores stand for a dot. -/
def dots : List Char → List Char
  | '_' :: '_' :: rest => '.' :: dots rest
  | c :: rest => c :: dots rest
  | [] => []

def variablePlace? (name : String) : Option Config.Place :=
  let cs := name.toList.map small
  if variableMark.isPrefixOf cs then
    some (.parse (String.ofList (dots (cs.drop variableMark.length))))
  else none

def setEntries (config : Config) (entries : Config.Entries) : Config :=
  entries.foldl (fun config (name, value) => config.set (.parse name) value) config

def setVariables (config : Config) (environment : List (String × String)) : Config :=
  environment.foldl
    (fun config (name, value) =>
      match variablePlace? name with
      | some place => config.set place (.text value)
      | none => config)
    config

/-- A section is a table or a list of its fields in order. One that is missing has none. -/
def section? (config : Config) (name : String) (fields : List String) : Option Config.Entries :=
  match config.entries.lookup name with
  | none => some []
  | some (.table entries) => some entries
  | some (.list items) => some (fields.zip items)
  | _ => none

def text? (entries : Config.Entries) (name : String) : Option (Option String) :=
  match entries.lookup name with
  | none => some none
  | some .absent => some none
  | some (.text text) => some (some text)
  | _ => none

def ofConfig? (config : Config) : Option Settings := do
  let database ← section? config "database" ["path"]
  let log ← section? config "log" ["level"]
  let storePath ← text? database "path"
  let logLevel ←
    match log.lookup "level" with
    | none => some defaultLogLevel
    | some (.text text) => some text
    | _ => none
  return { logLevel, storePath }

def ofEntries? (entries : Config.Entries) (environment : List (String × String)) :
    Option Settings :=
  ofConfig? (setVariables (setEntries (.table []) entries) environment)

def read? (reader : Config.Reader) (file : Option (Config.Format × String))
    (environment : List (String × String)) : Option Settings :=
  match file with
  | some (format, text) => (reader format text).bind (ofEntries? · environment)
  | none => ofEntries? [] environment

def store (settings : Settings) (workDir : String) : String :=
  settings.storePath.getD (join workDir storeName)

end Settings

end Lightpay.Operator
