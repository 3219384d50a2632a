import Lightpay.Json.Basic
import Lightpay.Json.Quoted

/-!
Reading JSON texts. A text is one value with white space around it and nothing after it.
Every reader returns what follows the part it has read.
-/

namespace Lightpay.Json

def isSpace (c : Char) : Bool :=
  c = ' ' || c = '\n' || c = '\r' || c = '\t'

def skip (cs : List Char) : List Char :=
  cs.dropWhile isSpace

def before (cs rest : List Char) : List Char :=
  cs.take (cs.length - rest.length)

def digits? (cs : List Char) : Option (List Char × List Char) :=
  match cs.span Char.isDigit with
  | ([], _) => none
  | found => some found

def skipFraction : List Char → Option (List Char)
  | '.' :: rest => (digits? rest).map (·.2)
  | rest => some rest

def skipSign : List Char → List Char
  | '+' :: rest => rest
  | '-' :: rest => rest
  | rest => rest

def skipExponent : List Char → Option (List Char)
  | 'e' :: rest => (digits? (skipSign rest)).map (·.2)
  | 'E' :: rest => (digits? (skipSign rest)).map (·.2)
  | rest => some rest

def unsigned (cs : List Char) : Option (List Char × List Char × List Char) := do
  let (whole, tail) ← digits? cs
  if whole.head? = some '0' ∧ whole.length ≠ 1 then none
  else
    let rest ← skipFraction tail
    let rest ← skipExponent rest
    return (whole, tail, rest)

def number (cs : List Char) : Option (Json × List Char) :=
  match cs with
  | '-' :: magnitude =>
    (unsigned magnitude).map fun (_, _, rest) => (.foreign (before cs rest), rest)
  | _ =>
    (unsigned cs).map fun (whole, tail, rest) =>
      if tail.length = rest.length then (.nat (Nat.ofDigitChars 10 whole 0), rest)
      else (.foreign (before cs rest), rest)

def object (cs : List Char) (members : List (Option String × Json)) (rest : List Char) : Json :=
  match members.mapM fun (name, value) => name.map fun n => (n, value) with
  | some named => .obj named
  | none => .foreign (before cs rest)

mutual

/-- Reads one value; each nested value and each further item takes one unit of `fuel`. -/
def value : (fuel : Nat) → List Char → Option (Json × List Char)
  | 0, _ => none
  | fuel + 1, cs =>
    match cs with
    | 'n' :: 'u' :: 'l' :: 'l' :: rest => some (.null, rest)
    | 't' :: 'r' :: 'u' :: 'e' :: rest => some (.bool true, rest)
    | 'f' :: 'a' :: 'l' :: 's' :: 'e' :: rest => some (.bool false, rest)
    | '"' :: body =>
      match Quoted.read body with
      | some (some text, rest) => some (.str text, rest)
      | some (none, rest) => some (.foreign (before cs rest), rest)
      | none => none
    | '[' :: body =>
      match skip body with
      | ']' :: rest => some (.arr [], rest)
      | body => (items fuel [] body).map fun (found, rest) => (.arr found, rest)
    | '\x7b' :: body =>
      match skip body with
      | '\x7d' :: rest => some (.obj [], rest)
      | body => (members fuel [] body).map fun (found, rest) => (object cs found rest, rest)
    | _ => number cs

def items : (fuel : Nat) → (done : List Json) → List Char → Option (List Json × List Char)
  | 0, _, _ => none
  | fuel + 1, done, cs =>
    match value fuel cs with
    | none => none
    | some (item, rest) =>
      match skip rest with
      | ',' :: rest => items fuel (item :: done) (skip rest)
      | ']' :: rest => some ((item :: done).reverse, rest)
      | _ => none

def members : (fuel : Nat) → (done : List (Option String × Json)) → List Char →
    Option (List (Option String × Json) × List Char)
  | 0, _, _ => none
  | fuel + 1, done, cs =>
    match cs with
    | '"' :: body =>
      match Quoted.read body with
      | none => none
      | some (name, rest) =>
        match skip rest with
        | ':' :: rest =>
          match value fuel (skip rest) with
          | none => none
          | some (found, rest) =>
            match skip rest with
            | ',' :: rest => members fuel ((name, found) :: done) (skip rest)
            | '\x7d' :: rest => some (((name, found) :: done).reverse, rest)
            | _ => none
        | _ => none
    | _ => none

end

def parse? (text : String) : Option Json :=
  let cs := text.toList
  match value (cs.length + 1) (skip cs) with
  | some (found, rest) => if (skip rest).isEmpty then some found else none
  | none => none

end Lightpay.Json
