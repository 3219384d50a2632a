import Lightpay.Operator.Tool

/-!
A tree of directories and files in memory, on which the operator tool can run.
-/

namespace Lightpay.Operator

abbrev Location := List String

inductive Node where
  | directory
  | file (content : Content)
  /-- Something that keeps nothing of what is written to it. -/
  | device
deriving DecidableEq

structure FileTree where
  nodes : List (Location × Node)
deriving DecidableEq

namespace FileTree

inductive Fault where
  | missing
  | exists
  | notDirectory
  | tooLong
deriving DecidableEq, Repr

def Fault.message : Fault → String
  | .missing => "No such file or directory (os error 2)"
  | .exists => "File exists (os error 17)"
  | .notDirectory => "Not a directory (os error 20)"
  | .tooLong => "File name too long (os error 36)"

def longestName : Nat := 255

def longestPath : Nat := 4095

def accepts (path : String) : Bool :=
  path.utf8ByteSize ≤ longestPath && !path.toList.contains '\x00'

def empty : FileTree := ⟨[]⟩

def node? (tree : FileTree) (location : Location) : Option Node :=
  if location = [] then some .directory else tree.nodes.lookup location

def put (tree : FileTree) (location : Location) (node : Node) : FileTree :=
  ⟨(location, node) :: tree.nodes.filter (·.1 ≠ location)⟩

def next (location : Location) (name : String) : Location :=
  if name = "" ∨ name = "." then location
  else if name = ".." then location.dropLast
  else location ++ [name]

def start (current : Location) (path : String) : Location × List String :=
  match path.splitOn "/" with
  | "" :: names => ([], names)
  | names => (current, names)

def directory (tree : FileTree) (location : Location) : Except Fault Location :=
  match tree.node? location with
  | some .directory => .ok location
  | some _ => .error .notDirectory
  | none => .error .missing

def follow (tree : FileTree) (location : Location) : List String → Except Fault Location
  | [] => tree.directory location
  | name :: names =>
    match tree.directory location with
    | .ok location =>
      if longestName < name.utf8ByteSize then .error .tooLong
      else tree.follow (next location name) names
    | .error fault => .error fault

def locate? (tree : FileTree) (current : Location) (path : String) : Option Location := do
  let (location, names) := start current path
  let name ← names.getLast?
  if ¬ accepts path ∨ longestName < name.utf8ByteSize then none
  else if name = "" ∨ name = "." ∨ name = ".." then none
  else return next (← (tree.follow location names.dropLast).toOption) name

def read? (tree : FileTree) (current : Location) (path : String) : Option Content := do
  match tree.node? (← tree.locate? current path) with
  | some (.file content) => some content
  | _ => none

def write? (tree : FileTree) (current : Location) (path : String) (content : Content) :
    Option FileTree := do
  let location ← tree.locate? current path
  match tree.node? location with
  | none => some (tree.put location (.file content))
  | some (.file _) => some (tree.put location (.file content))
  | some _ => none

/-- Makes one directory. Slashes behind its name do not count. -/
def makeDirectory (tree : FileTree) (location : Location) (names : List String) :
    Except Fault FileTree :=
  match names.reverse.dropWhile (· = "") with
  | [] => .error .exists
  | name :: above => do
    let parent ← tree.follow location above.reverse
    if longestName < name.utf8ByteSize then .error .tooLong
    else if name = "." ∨ name = ".." then .error .exists
    else
      match tree.node? (next parent name) with
      | none => .ok (tree.put (next parent name) .directory)
      | some _ => .error .exists

def ensureDirectory (tree : FileTree) (location : Location) (names : List String) :
    Except Fault FileTree :=
  match tree.makeDirectory location names, tree.follow location names with
  | .ok tree, _ => .ok tree
  | .error _, .ok _ => .ok tree
  | .error fault, .error _ => .error fault

def settle (tree : FileTree) : Except Fault FileTree → Except Fault Unit × FileTree
  | .ok tree => (.ok (), tree)
  | .error fault => (.error fault, tree)

/-- Makes a directory and, where something is missing, first those above it, the nearest first in
`above`. A fault leaves those that are made. -/
def makeWay (tree : FileTree) (location : Location) (names : List String) :
    (above : List String) → Except Fault Unit × FileTree
  | [] => tree.settle (tree.ensureDirectory location names)
  | name :: above =>
    match tree.ensureDirectory location names with
    | .error .missing =>
      match tree.makeWay location (name :: above).reverse above with
      | (.ok (), tree) => tree.settle (tree.ensureDirectory location names)
      | failed => failed
    | result => tree.settle result

def makeDirectories (tree : FileTree) (current : Location) (path : String) :
    Except Fault Unit × FileTree :=
  let (location, names) := start current path
  if path = "" then (.ok (), tree)
  else if ¬ accepts path then (.error .tooLong, tree)
  else
    let above := (names.filter fun name => name ≠ "" && name ≠ ".").reverse.drop 1
    tree.makeWay location names above

/-- The tree as the file system of the tool, which runs in the directory `current`. -/
def host (current : Location) : Host (StateM FileTree) where
  currentDirectory := pure ("/" ++ "/".intercalate current)
  makeDirectories path tree :=
    let (result, tree) := tree.makeDirectories current path
    (result.mapError Fault.message, tree)
  read? path tree := (tree.read? current path, tree)
  write path store tree :=
    match tree.write? current path (.store store) with
    | some tree => (true, tree)
    | none => (false, tree)

end FileTree

end Lightpay.Operator
