import Lightpay.Config.Basic
import Lightpay.Json5.Text

/-!
Reading configurations from JSON5 texts: JSON with comments, names without quotes, strings in single
quotes, and a comma after the last item. Of two members with one name the last counts, and the text
is an object as a whole. Every reader returns what follows the part it has read.
-/

namespace Lightpay.Json5

inductive Position where
  | outside
  | lineComment
  | blockComment

def skip? : Position → List Char → Option (List Char)
  | .blockComment, [] => none
  | _, [] => some []
  | .blockComment, '*' :: '/' :: rest => skip? .outside rest
  | .blockComment, _ :: rest => skip? .blockComment rest
  | .outside, '/' :: '/' :: rest => skip? .lineComment rest
  | .outside, '/' :: '*' :: rest => skip? .blockComment rest
  | .outside, c :: rest => if isBlank c then skip? .outside rest else some (c :: rest)
  | .lineComment, c :: rest =>
    if Whitespace.isLineEnd c then skip? .outside rest else skip? .lineComment rest

def next? (cs : List Char) : Option (List Char) := skip? .outside cs

def name? : List Char → Option (String × List Char)
  | '"' :: rest => Text.quoted? '"' rest
  | '\x27' :: rest => Text.quoted? '\x27' rest
  | cs => Text.name? cs

mutual

/-- Reads one value; each nested value and each further item takes one unit of `fuel`. -/
def value : (fuel : Nat) → List Char → Option (Config × List Char)
  | 0, _ => none
  | fuel + 1, cs =>
    match cs with
    | 'n' :: 'u' :: 'l' :: 'l' :: rest => some (.absent, rest)
    | 't' :: 'r' :: 'u' :: 'e' :: rest => some (.text "true", rest)
    | 'f' :: 'a' :: 'l' :: 's' :: 'e' :: rest => some (.text "false", rest)
    | '"' :: rest => (Text.quoted? '"' rest).map fun (found, rest) => (.text found, rest)
    | '\x27' :: rest => (Text.quoted? '\x27' rest).map fun (found, rest) => (.text found, rest)
    | '[' :: rest => do
      let (found, rest) ← items fuel [] (← next? rest)
      return (.list found, rest)
    | '\x7b' :: rest => do
      let (found, rest) ← members fuel [] (← next? rest)
      return (.table found, rest)
    | _ => (Number.read? cs).map fun (found, rest) => (.text (String.ofList found), rest)

def items : (fuel : Nat) → (done : List Config) → List Char → Option (List Config × List Char)
  | 0, _, _ => none
  | fuel + 1, done, cs =>
    match cs with
    | ']' :: rest => some (done.reverse, rest)
    | _ => do
      let (item, rest) ← value fuel cs
      match ← next? rest with
      | ',' :: rest => items fuel (item :: done) (← next? rest)
      | ']' :: rest => return ((item :: done).reverse, rest)
      | _ => none

def members : (fuel : Nat) → (done : Config.Entries) → List Char →
    Option (Config.Entries × List Char)
  | 0, _, _ => none
  | fuel + 1, done, cs =>
    match cs with
    | '\x7d' :: rest => some (done, rest)
    | _ => do
      let (name, rest) ← name? cs
      match ← next? rest with
      | ':' :: rest =>
        let (found, rest) ← value fuel (← next? rest)
        let done := Config.put name found done
        match ← next? rest with
        | ',' :: rest => members fuel done (← next? rest)
        | '\x7d' :: rest => return (done, rest)
        | _ => none
      | _ => none

end

def parse? (text : String) : Option Config.Entries := do
  let cs := text.toList
  let (found, rest) ← value (cs.length + 1) (← next? cs)
  match found, ← next? rest with
  | .table entries, [] => return entries
  | _, _ => none

end Lightpay.Json5
