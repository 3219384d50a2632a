import Lightpay.Config.Basic
import Lightpay.Ron.Number

/-!
Reading configurations from RON texts: records and tuples in parentheses, with a name in front or
without, lists, maps, ranges, and values that may be there. Records, maps and ranges are tables,
tuples and strings of bytes are lists; of two fields with one name the last counts. The text is a
table as a whole. Every reader returns what follows the part it has read.
-/

namespace Lightpay.Ron

inductive Position where
  | outside
  | lineComment
  | blockComment (around : Nat)

def skip? : Position → List Char → Option (List Char)
  | .blockComment _, [] => none
  | _, [] => some []
  | .blockComment 0, '*' :: '/' :: rest => skip? .outside rest
  | .blockComment (around + 1), '*' :: '/' :: rest => skip? (.blockComment around) rest
  | .blockComment around, '/' :: '*' :: rest => skip? (.blockComment (around + 1)) rest
  | .blockComment around, _ :: rest => skip? (.blockComment around) rest
  | .outside, '/' :: '/' :: rest => skip? .lineComment rest
  | .outside, '/' :: '*' :: rest => skip? (.blockComment 0) rest
  | .outside, c :: rest => if isBlank c then skip? .outside rest else some (c :: rest)
  | .lineComment, c :: rest => if c = '\n' then skip? .outside rest else skip? .lineComment rest

def next? (cs : List Char) : Option (List Char) := skip? .outside cs

def separated? (close : Char) (cs : List Char) : Option (List Char) := do
  match ← next? cs with
  | ',' :: rest => next? rest
  | c :: rest => if c = close then return c :: rest else none
  | [] => none

def field? (cs : List Char) : Option (String × List Char) := do
  let (name, rest) ← Name.read? cs
  match ← next? rest with
  | ':' :: rest => return (name.text, ← next? rest)
  | _ => none

def numberText (digits : List Char) : Config := .text (String.ofList digits)

def rangeFrom (start : Config.Entries) (cs : List Char) : Config × List Char :=
  let cs := match cs with
    | '=' :: rest => rest
    | _ => cs
  match Number.read? cs, start with
  | some (last, rest), _ => (.table (start ++ [("end", numberText last)]), rest)
  | none, [] => (.absent, cs)
  | none, _ => (.table start, cs)

def number? (cs : List Char) : Option (Config × List Char) :=
  match cs with
  | '.' :: '.' :: rest => some (rangeFrom [] rest)
  | _ =>
    match Number.read? cs with
    | some (first, '.' :: '.' :: rest) => some (rangeFrom [("start", numberText first)] rest)
    | some (found, rest) => some (numberText found, rest)
    | none => none

def scalar? (cs : List Char) : Option (Config × List Char) :=
  match cs with
  | '(' :: ')' :: rest => some (.absent, rest)
  | _ =>
    match Text.bytes? cs, Text.read? cs with
    | some (found, rest), _ =>
      some (.list (found.map fun byte => numberText (Nat.toDigits 10 byte.toNat)), rest)
    | none, some (found, rest) => some (.text found, rest)
    | none, none => number? cs

mutual

/-- Reads one value. Collections, their items and values that may be there are nested at most
`depth` times; each nested value and each further item takes one unit of `fuel`. -/
def value (unwraps : Bool) : (fuel depth : Nat) → List Char → Option (Config × List Char)
  | 0, _, _ => none
  | fuel + 1, depth, cs =>
    match scalar? cs, cs, depth with
    | some found, _, _ => some found
    | none, '(' :: rest, depth + 1 => do group unwraps fuel depth (← next? rest)
    | none, '[' :: rest, depth + 1 => do
      let (found, rest) ← items unwraps fuel depth ']' [] (← next? rest)
      return (.list found, rest)
    | none, '\x7b' :: rest, depth + 1 => do
      let (found, rest) ← members unwraps fuel depth [] (← next? rest)
      return (.table found, rest)
    | none, _, _ => do
      let (name, rest) ← Name.read? cs
      named unwraps fuel depth name rest
termination_by structural fuel => fuel

def named (unwraps : Bool) : (fuel depth : Nat) → Name → List Char → Option (Config × List Char)
  | 0, _, _, _ => none
  | fuel + 1, depth, name, rest => do
    if name.isWord "true" ∨ name.isWord "false" then return (.text name.text, rest)
    else if name.isWord "None" then return (.absent, rest)
    else
      match ← next? rest, depth with
      | '(' :: inner, depth + 1 =>
        let inner ← next? inner
        if name.isWord "Some" then present unwraps fuel depth inner
        else group unwraps fuel depth inner
      | _, _ => if name.isWord "Some" then none else return (.absent, rest)
termination_by structural fuel => fuel

/-- A value that is there, after its opening parenthesis. Where the text `unwraps` such values, the
parentheses may be those of the value itself. -/
def present (unwraps : Bool) : (fuel depth : Nat) → List Char → Option (Config × List Char)
  | 0, _, _ => none
  | fuel + 1, depth, cs =>
    let single : Option (Config × List Char) := do
      let (found, rest) ← value unwraps fuel depth cs
      match ← separated? ')' rest with
      | ')' :: rest => return (found, rest)
      | _ => none
    match single, unwraps, cs, depth with
    | some found, _, _, _ => some found
    | none, true, ')' :: rest, _ => some (.absent, rest)
    | none, true, _, depth + 1 => group unwraps fuel depth cs
    | none, _, _, _ => none
termination_by structural fuel => fuel

def group (unwraps : Bool) : (fuel depth : Nat) → List Char → Option (Config × List Char)
  | 0, _, _ => none
  | fuel + 1, depth, cs => do
    match field? cs with
    | some _ =>
      let (found, rest) ← fields unwraps fuel depth [] cs
      return (.table found, rest)
    | none =>
      let (found, rest) ← items unwraps fuel depth ')' [] cs
      return (.list found, rest)
termination_by structural fuel => fuel

def items (unwraps : Bool) : (fuel depth : Nat) → (close : Char) → (done : List Config) →
    List Char → Option (List Config × List Char)
  | 0, _, _, _, _ => none
  | fuel + 1, depth, close, done, cs => do
    if cs.head? = some close then return (done.reverse, cs.drop 1)
    else
      match depth with
      | 0 => none
      | inner + 1 =>
        let (item, rest) ← value unwraps fuel inner cs
        items unwraps fuel depth close (item :: done) (← separated? close rest)
termination_by structural fuel => fuel

def fields (unwraps : Bool) : (fuel depth : Nat) → (done : Config.Entries) → List Char →
    Option (Config.Entries × List Char)
  | 0, _, _, _ => none
  | fuel + 1, depth, done, cs =>
    match cs, depth with
    | ')' :: rest, _ => some (done, rest)
    | _, 0 => none
    | _, inner + 1 => do
      let (name, rest) ← field? cs
      let (found, rest) ← value unwraps fuel inner rest
      fields unwraps fuel depth (Config.put name found done) (← separated? ')' rest)
termination_by structural fuel => fuel

def members (unwraps : Bool) : (fuel depth : Nat) → (done : Config.Entries) → List Char →
    Option (Config.Entries × List Char)
  | 0, _, _, _ => none
  | fuel + 1, depth, done, cs =>
    match cs, depth with
    | '\x7d' :: rest, _ => some (done, rest)
    | _, 0 => none
    | _, inner + 1 => do
      let (name, rest) ← Text.key? cs
      match ← next? rest with
      | ':' :: rest =>
        let (found, rest) ← value unwraps fuel inner (← next? rest)
        members unwraps fuel depth (Config.put name found done) (← separated? '\x7d' rest)
      | _ => none
termination_by structural fuel => fuel

end

/-- How deep values may be nested; a collection and its items count one each. -/
def greatestDepth : Nat := 128

inductive Extension where
  | unwrapVariantNewtypes
  | other
deriving DecidableEq, Repr

def Extension.ofName? (name : String) : Option Extension :=
  if name = "unwrap_variant_newtypes" then some .unwrapVariantNewtypes
  else if ["unwrap_newtypes", "implicit_some", "explicit_struct_names"].contains name then
    some .other
  else none

def extensions? : (fuel : Nat) → List Char → Option (List Extension × List Char)
  | 0, _ => none
  | fuel + 1, cs => do
    let (name, rest) ← Name.read? cs
    let extension ← Extension.ofName? name.text
    match ← separated? ')' rest with
    | ')' :: rest => return ([extension], ← next? rest)
    | rest =>
      let (others, rest) ← extensions? fuel rest
      return (extension :: others, rest)

def header? : (fuel : Nat) → List Char → Option (List Extension × List Char)
  | 0, _ => none
  | fuel + 1, cs =>
    match cs with
    | '#' :: rest => do
      let '!' :: rest ← next? rest | none
      let '[' :: rest ← next? rest | none
      let (⟨"enable", false⟩, rest) ← Name.read? (← next? rest) | none
      let '(' :: rest ← next? rest | none
      let (found, ']' :: rest) ← extensions? fuel (← next? rest) | none
      let (others, rest) ← header? fuel (← next? rest)
      return (found ++ others, rest)
    | _ => some ([], cs)

def parse? (text : String) : Option Config.Entries := do
  let cs := text.toList
  let (extensions, cs) ← header? (cs.length + 1) (← next? cs)
  let unwraps := extensions.contains .unwrapVariantNewtypes
  let (found, rest) ← value unwraps (2 * cs.length + 2) greatestDepth cs
  match found, ← next? rest with
  | .table entries, [] => return entries
  | _, _ => none

end Lightpay.Ron
