/-!
Values of a configuration: scalars, all of them kept as text, in lists and tables. Names in a
table are distinct, and their order has no meaning.
-/

namespace Lightpay

inductive Config where
  /-- A gap in a list. -/
  | absent
  | text (value : String)
  | list (items : List Config)
  | table (entries : List (String × Config))
deriving Inhabited

namespace Config

abbrev Entries := List (String × Config)

def entries : Config → Entries
  | table entries => entries
  | _ => []

def items : Config → List Config
  | list items => items
  | _ => []

def put (name : String) (value : α) : List (String × α) → List (String × α)
  | [] => [(name, value)]
  | entry :: rest => if entry.1 = name then (name, value) :: rest else entry :: put name value rest

mutual

/-- A new value in place of an old one; tables are joined entry by entry. -/
def merge (old : Config) : Config → Config
  | table entries => .table (mergeEntries old.entries entries)
  | value => value

def mergeEntries (old : Entries) : Entries → Entries
  | [] => old
  | (name, value) :: rest =>
    mergeEntries (put name (merge ((old.lookup name).getD .absent) value) old) rest

end

end Config

end Lightpay
