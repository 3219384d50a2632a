/-!
The command line of the operator tool: options, then one command with its argument. An option is
`-w` or `-c` with a value right behind it, after an equals sign or in the next argument, or in its
long form with a value after an equals sign or in the next argument.
-/

namespace Lightpay.Operator

inductive Command where
  | list
  | listInFlight
  | status (hash : String)
  | deleteResolved
deriving DecidableEq, Repr

structure Invocation where
  workDir : Option String
  configFile : Option String
  command : Command
deriving DecidableEq, Repr

inductive CommandLine where
  | run (invocation : Invocation)
  | version
  | help
  | unusable
deriving DecidableEq, Repr

namespace CommandLine

inductive Flag where
  | workDir
  | config
deriving DecidableEq, Repr

inductive Argument where
  | option (flag : Flag) (value : Option String)
  | version
  | help
  | command (name : String)
  | unknown
deriving DecidableEq, Repr

def short (flag : Flag) : List Char → Argument
  | [] => .option flag none
  | '=' :: value => .option flag (some (String.ofList value))
  | value => .option flag (some (String.ofList value))

def long (cs : List Char) : Argument :=
  let (name, value) := cs.span (· ≠ '=')
  let value := if value.isEmpty then none else some (String.ofList (value.drop 1))
  match String.ofList name, value with
  | "work-dir", value => .option .workDir value
  | "config", value => .option .config value
  | "version", none => .version
  | "help", none => .help
  | _, _ => .unknown

def Argument.ofText (text : String) : Argument :=
  match text.toList with
  | '-' :: '-' :: name => long name
  | '-' :: 'w' :: value => short .workDir value
  | '-' :: 'c' :: value => short .config value
  | '-' :: 'V' :: _ => .version
  | '-' :: 'h' :: _ => .help
  | '-' :: _ => .unknown
  | _ => .command text

def isValue (text : String) : Bool :=
  match text.toList with
  | '-' :: _ :: _ => false
  | _ => true

inductive Arguments where
  | values (values : List String)
  | help
  | unusable
deriving DecidableEq, Repr

/-- Reads the arguments of a command from the left, up to the first that settles the matter; a
command takes at most so many values. Behind two dashes all of them are values. -/
def arguments (most : Nat) (done : List String) : List String → Arguments
  | [] => .values done.reverse
  | text :: rest =>
    if text = "--" then
      if done.length + rest.length ≤ most then .values (done.reverse ++ rest) else .unusable
    else if Argument.ofText text = .help then .help
    else if isValue text ∧ done.length < most then arguments most (text :: done) rest
    else .unusable

def commands : List (String × Nat) :=
  [("list", 0), ("in-flight", 0), ("status", 1), ("delete-resolved", 0)]

def command? : (name : String) → (values : List String) → Option Command
  | "list", [] => some .list
  | "in-flight", [] => some .listInFlight
  | "delete-resolved", [] => some .deleteResolved
  | "status", [hash] => some (.status hash)
  | _, _ => none

/-- Help is there on the tool, on one command, and on help. -/
def helpOn : List String → CommandLine
  | [] => .help
  | [name] => if name = "help" ∨ (commands.lookup name).isSome then .help else .unusable
  | _ => .unusable

structure Options where
  workDir : Option String
  configFile : Option String
deriving DecidableEq, Repr

/-- Sets an option. It is set once, to a value that is not empty. -/
def Options.set? (options : Options) (flag : Flag) (value : String) : Option Options :=
  if value = "" then none
  else
    match flag with
    | .workDir =>
      if options.workDir.isSome then none else some { options with workDir := some value }
    | .config =>
      if options.configFile.isSome then none else some { options with configFile := some value }

def Options.run (options : Options) (name : String) (rest : List String) : CommandLine :=
  match commands.lookup name with
  | none => .unusable
  | some most =>
    match arguments most [] rest with
    | .help => .help
    | .unusable => .unusable
    | .values values =>
      match command? name values with
      | some command => .run ⟨options.workDir, options.configFile, command⟩
      | none => .unusable

def readFrom (options : Options) : List String → CommandLine
  | [] => .unusable
  | text :: rest =>
    match Argument.ofText text with
    | .version => .version
    | .help => .help
    | .unknown => .unusable
    | .option flag (some value) =>
      match options.set? flag value with
      | some options => readFrom options rest
      | none => .unusable
    | .option flag none =>
      match rest with
      | [] => .unusable
      | value :: rest =>
        if ¬ isValue value then .unusable
        else
          match options.set? flag value with
          | some options => readFrom options rest
          | none => .unusable
    | .command name => if name = "help" then helpOn rest else options.run name rest

def read (arguments : List String) : CommandLine :=
  readFrom ⟨none, none⟩ arguments

end CommandLine

end Lightpay.Operator
