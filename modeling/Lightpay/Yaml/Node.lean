import Lightpay.Config.Basic
import Lightpay.Numeral

/-!
The nodes of a YAML document: scalars, sequences and mappings. A scalar without quotes stands for
nothing, a truth value, an integer or a fraction if it is written like one, and else for its text.
-/

namespace Lightpay.Yaml

inductive Node where
  /-- A scalar that is not what its tag says, or a node inside itself. It is no key of an entry. -/
  | invalid
  | null
  | bool (value : Bool)
  | integer (value : Int)
  | fraction (text : List Char)
  | text (value : String)
  | list (items : List Node)
  | table (entries : List (Node × Node))
deriving Inhabited

structure Tag where
  scope : String
  suffix : String
deriving DecidableEq, Repr

def Tag.standard : String := "tag:yaml.org,2002:"

namespace Node

open Numeral

/-- The words for an infinite fraction, and for none at all. -/
def fractionWords : List String :=
  [".inf", ".Inf", ".INF", "+.inf", "+.Inf", "+.INF", "-.inf", "-.Inf", "-.INF", ".nan", ".NaN",
    ".NAN"]

def isFraction (cs : List Char) : Bool :=
  fractionWords.contains (String.ofList cs) || cs.any Char.isDigit && (Decimal.ofText? cs).isSome

def integer? (cs : List Char) : Option Int :=
  match cs with
  | '0' :: 'x' :: digits => Numeral.integer? 16 digits
  | '0' :: 'o' :: digits => Numeral.integer? 8 digits
  | '+' :: digits => Numeral.integer? 10 digits
  | _ => Numeral.integer? 10 cs

def bool? (cs : List Char) : Option Bool :=
  let text := String.ofList cs
  if ["true", "True", "TRUE"].contains text then some true
  else if ["false", "False", "FALSE"].contains text then some false
  else none

def ofPlain (cs : List Char) : Node :=
  if ["", "~", "null"].contains (String.ofList cs) then .null
  else
    match bool? cs, integer? cs with
    | some b, _ => .bool b
    | none, some n => .integer n
    | none, none => if isFraction cs then .fraction cs else .text (String.ofList cs)

def ofTagged (tag : Option Tag) (cs : List Char) : Node :=
  match tag with
  | none => ofPlain cs
  | some tag =>
    if tag.scope ≠ Tag.standard then .text (String.ofList cs)
    else if tag.suffix = "bool" then ((bool? cs).map bool).getD .invalid
    else if tag.suffix = "int" then ((Numeral.integer? 10 cs).map integer).getD .invalid
    else if tag.suffix = "float" then if isFraction cs then .fraction cs else .invalid
    else if tag.suffix = "null" then
      if ["~", "null"].contains (String.ofList cs) then .null else .invalid
    else .text (String.ofList cs)

def SameKey : Node → Node → Bool
  | .null, .null => true
  | .bool a, .bool b => a = b
  | .integer a, .integer b => a = b
  | .fraction a, .fraction b => a = b
  | .text a, .text b => a = b
  | _, _ => false

def name? : Node → Option String
  | .bool b => some (if b then "true" else "false")
  | .integer n => some (String.ofList (integerText n))
  | .fraction shown => some (String.ofList shown)
  | .text value => some value
  | _ => none

mutual

def config? : Node → Option Config
  | .invalid => some .absent
  | .null => some .absent
  | .bool b => some (.text (if b then "true" else "false"))
  | .integer n => some (.text (String.ofList (integerText n)))
  | .fraction shown => (Decimal.ofText? shown).map fun found => .text (String.ofList found.text)
  | .text value => some (.text value)
  | .list items => (configItems? items).map .list
  | .table entries => (configEntries? [] entries).map .table

def configItems? : List Node → Option (List Config)
  | [] => some []
  | item :: rest => do
    let found ← config? item
    return found :: (← configItems? rest)

def configEntries? (done : Config.Entries) : List (Node × Node) → Option Config.Entries
  | [] => some done
  | (key, value) :: rest => do
    let name ← name? key
    let found ← config? value
    configEntries? (Config.put name found done) rest

end

end Node

end Lightpay.Yaml
