import Lightpay.Config.Basic

/-!
Places in a configuration, written as `table.name` or `list[0]`. A value set at a place makes the
tables and lists on the way to it, in place of values of another kind.
-/

namespace Lightpay.Config

inductive Step where
  | name (name : String)
  /-- A position in a list, counted from its end if it is negative. -/
  | item (index : Int)
deriving DecidableEq, Repr

abbrev Place := List Step

namespace Place

def isNameChar (c : Char) : Bool :=
  c.isAlphanum || c = '_' || c = '-'

def isBlank (c : Char) : Bool :=
  c = ' ' || c = '\t'

def name? (cs : List Char) : Option (Step × List Char) :=
  match cs.span isNameChar with
  | ([], _) => none
  | (found, rest) => some (.name (String.ofList found), rest)

def item? (cs : List Char) : Option (Step × List Char) :=
  let cs := cs.dropWhile isBlank
  let (negative, cs) := match cs with
    | '-' :: rest => (true, rest)
    | _ => (false, cs)
  match cs.span Char.isDigit with
  | ([], _) => none
  | (digits, rest) =>
    let size := Nat.ofDigitChars 10 digits 0
    let index : Int := if negative then -size else size
    match rest.dropWhile isBlank with
    | ']' :: rest =>
      if Int64.minValue.toInt ≤ index ∧ index ≤ Int64.maxValue.toInt then some (.item index, rest)
      else none
    | _ => none

def steps? : (fuel : Nat) → List Char → Option Place
  | _, [] => some []
  | 0, _ => none
  | fuel + 1, '.' :: rest => do
    let (step, rest) ← name? rest
    return step :: (← steps? fuel rest)
  | fuel + 1, '[' :: rest => do
    let (step, rest) ← item? rest
    return step :: (← steps? fuel rest)
  | _, _ => none

/-- A text that is no place names an entry of the root. -/
def parse (text : String) : Place :=
  let read? : Option Place := do
    let (step, rest) ← name? text.toList
    return step :: (← steps? rest.length rest)
  read?.getD [.name text]

def reach (items : List Config) (index : Int) : List Config × Nat :=
  if 0 ≤ index then
    (items ++ List.replicate (index.toNat + 1 - items.length) .absent, index.toNat)
  else
    (List.replicate (index.natAbs - items.length) .absent ++ items, items.length - index.natAbs)

def change (f : Config → Config) : Place → Config → Config
  | [], value => f value
  | .name name :: rest, value =>
    .table (put name (change f rest ((value.entries.lookup name).getD .absent)) value.entries)
  | .item index :: rest, value =>
    let (items, position) := reach value.items index
    .list (items.modify position (change f rest))

end Place

def set (config : Config) (place : Place) (value : Config) : Config :=
  Place.change (·.merge value) place config

end Lightpay.Config
