import Lightpay.Config.Basic

/-!
The tables of a TOML document while it is read. A table is made by its own header, by the header of
a table inside it, or by a dotted name. Each of them may be opened by a header once, and only if a
header has not made it; dotted names only add to tables that dotted names have made. Values, inline
tables and inline lists are finished where they stand.
-/

namespace Lightpay.Toml

inductive Origin where
  | header
  | innerHeader
  | dottedName
deriving DecidableEq, Repr

inductive Item where
  | value (value : Config)
  | table (origin : Origin) (entries : List (String × Item))
  | tables (elements : List (List (String × Item)))
deriving Inhabited

abbrev Entries := List (String × Item)

namespace Entries

/-- Changes the table at a path below a table, given what has made it. A missing table on the way
is made as `origin` says; of several tables under one name the last is meant. -/
def change (origin : Origin) (f : Origin → Entries → Option Entries) :
    (path : List String) → (madeBy : Origin) → Entries → Option Entries
  | [], madeBy, entries => f madeBy entries
  | name :: path, _, entries => do
    let item ←
      match entries.lookup name with
      | none => (change origin f path origin []).map (.table origin)
      | some (.value _) => none
      | some (.tables []) => none
      | some (.tables (last :: earlier)) =>
        (change origin f path .header last).map fun last => .tables (last :: earlier)
      | some (.table madeBy found) =>
        if origin = .dottedName ∧ madeBy = .header then none
        else (change origin f path madeBy found).map (.table madeBy)
    return Config.put name item entries

def assign (path : List String) (name : String) (value : Config) (entries : Entries) :
    Option Entries :=
  change .dottedName
    (fun madeBy found =>
      if (madeBy = .dottedName ↔ path = []) ∨ (found.lookup name).isSome then none
      else some (Config.put name (.value value) found))
    path .header entries

def openTable (path : List String) (name : String) (root : Entries) : Option Entries :=
  change .innerHeader
    (fun _ found =>
      match found.lookup name with
      | none => some (Config.put name (.table .header []) found)
      | some (.table .innerHeader inner) => some (Config.put name (.table .header inner) found)
      | _ => none)
    path .header root

def appendTable (path : List String) (name : String) (root : Entries) : Option Entries :=
  change .innerHeader
    (fun _ found =>
      match found.lookup name with
      | none => some (Config.put name (.tables [[]]) found)
      | some (.tables elements) => some (Config.put name (.tables ([] :: elements)) found)
      | _ => none)
    path .header root

def assignIn (table : List String) (path : List String) (name : String) (value : Config)
    (root : Entries) : Option Entries :=
  change .innerHeader (fun _ => assign path name value) table .header root

end Entries

mutual

def Item.config : Item → Config
  | .value value => value
  | .table _ entries => .table (configEntries entries)
  | .tables elements => .list (configTables [] elements)

def configEntries : List (String × Item) → Config.Entries
  | [] => []
  | (name, item) :: rest => (name, item.config) :: configEntries rest

def configTables (done : List Config) : List (List (String × Item)) → List Config
  | [] => done
  | entries :: rest => configTables (.table (configEntries entries) :: done) rest

end

end Lightpay.Toml
