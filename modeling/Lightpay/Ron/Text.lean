import Lightpay.Numeral
import Lightpay.Unicode.Identifier

/-!
The texts of a RON document: names, strings and characters with escapes, strings without escapes
between marks, and strings of bytes. Every reader returns what follows the part it has read.
-/

namespace Lightpay.Ron

def isBlank (c : Char) : Bool :=
  c = ' ' || '\t' ≤ c && c ≤ '\r' || c = '\u0085' || c = '\u200e' || c = '\u200f' ||
    c = '\u2028' || c = '\u2029'

/-- A name. One that is raw is never a word of the language. -/
structure Name where
  text : String
  raw : Bool
deriving DecidableEq, Repr

namespace Name

def starts (c : Char) : Bool :=
  c = '_' || Unicode.startsIdentifier c

def isRawChar (c : Char) : Bool :=
  Unicode.continuesIdentifier c || c = '.' || c = '+' || c = '-'

def opensText : List Char → Bool
  | 'r' :: '"' :: _ | 'b' :: '"' :: _ | 'b' :: '\x27' :: _ | 'b' :: 'r' :: '"' :: _
  | 'b' :: 'r' :: '#' :: _ => true
  | _ => false

def read? (cs : List Char) : Option (Name × List Char) :=
  match cs with
  | 'r' :: '#' :: rest =>
    match rest.span isRawChar with
    | ([], _) => none
    | (found, rest) => some (⟨String.ofList found, true⟩, rest)
  | c :: _ =>
    if starts c ∧ ¬ opensText cs then
      let (found, rest) := cs.span Unicode.continuesIdentifier
      some (⟨String.ofList found, false⟩, rest)
    else none
  | [] => none

def isWord (name : Name) (word : String) : Bool :=
  !name.raw && name.text = word

end Name

namespace Text

def simpleEscape? (c : Char) : Option Char :=
  if c = '"' ∨ c = '\\' ∨ c = '\x27' then some c
  else if c = 'n' then some '\n'
  else if c = 'r' then some '\r'
  else if c = 't' then some '\t'
  else if c = '0' then some '\x00'
  else none

def numbered? (digits : List Char) : Option Char :=
  let n := Numeral.ofDigits 16 digits
  if digits = [] ∨ 6 < digits.length then none
  else if n.isValidChar then some (Char.ofNat n)
  else none

/-- The bytes that an escape spells after its backslash: one that is given by its number, or those
of a character. -/
def escape? : List Char → Option (List UInt8 × List Char)
  | 'x' :: a :: b :: rest =>
    if Numeral.isDigit 16 a ∧ Numeral.isDigit 16 b then
      some ([(Numeral.ofDigits 16 [a, b]).toUInt8], rest)
    else none
  | 'u' :: '\x7b' :: rest =>
    match rest.span (Numeral.isDigit 16) with
    | (digits, '\x7d' :: rest) =>
      (numbered? digits).map fun c => (String.utf8EncodeChar c, rest)
    | _ => none
  | c :: rest => (simpleEscape? c).map fun c => (String.utf8EncodeChar c, rest)
  | [] => none

def ofBytes? (reversed : List UInt8) : Option String :=
  String.fromUTF8? ⟨reversed.reverse.toArray⟩

def quoted (done : List UInt8) : (fuel : Nat) → List Char → Option (List UInt8 × List Char)
  | 0, _ => none
  | _, [] => none
  | fuel + 1, c :: rest =>
    if c = '"' then some (done, rest)
    else if c = '\\' then
      (escape? rest).bind fun (found, rest) => quoted (found.reverse ++ done) fuel rest
    else quoted ((String.utf8EncodeChar c).reverse ++ done) fuel rest

def escapes (done : List UInt8) : (fuel : Nat) → List Char → Option (List UInt8 × List Char)
  | _, '\x27' :: rest => some (done, rest)
  | fuel + 1, '\\' :: rest =>
    (escape? rest).bind fun (found, rest) => escapes (found.reverse ++ done) fuel rest
  | _, _ => none

def longestCharacter : Nat := 4

def character? (cs : List Char) : Option (String × List Char) :=
  match cs with
  | '\\' :: _ => do
    let (found, rest) ← escapes [] longestCharacter cs
    let text ← ofBytes? found
    if text.length = 1 then return (text, rest) else none
  | c :: '\x27' :: rest => some (String.singleton c, rest)
  | _ => none

def between (marks : List Char) (done : List Char) : List Char → Option (String × List Char)
  | [] => none
  | c :: rest =>
    if c = '"' ∧ marks.isPrefixOf rest then
      some (String.ofList done.reverse, rest.drop marks.length)
    else between marks (c :: done) rest

def plain? (cs : List Char) : Option (String × List Char) :=
  match cs.span (· = '#') with
  | (marks, '"' :: rest) => between marks [] rest
  | _ => none

def read? (cs : List Char) : Option (String × List Char) :=
  match cs with
  | '"' :: rest => do
    let (found, rest) ← quoted [] (rest.length + 1) rest
    return (← ofBytes? found, rest)
  | '\x27' :: rest => character? rest
  | 'r' :: rest => plain? rest
  | _ => none

def bytes? (cs : List Char) : Option (List UInt8 × List Char) :=
  match cs with
  | 'b' :: '"' :: rest =>
    (quoted [] (rest.length + 1) rest).map fun (found, rest) => (found.reverse, rest)
  | 'b' :: 'r' :: rest => (plain? rest).map fun (found, rest) => (found.toUTF8.toList, rest)
  | _ => none

def byte? (cs : List Char) : Option (UInt8 × List Char) :=
  match cs with
  | 'b' :: '\x27' :: '\\' :: rest =>
    match rest, escape? rest with
    | 'u' :: _, _ => none
    | _, some ([found], '\x27' :: rest) => some (found, rest)
    | _, _ => none
  | 'b' :: '\x27' :: c :: '\x27' :: rest => if c.toNat < 128 then some (c.toUInt8, rest) else none
  | _ => none

def key? (cs : List Char) : Option (String × List Char) :=
  match bytes? cs with
  | some (found, rest) => (ofBytes? found.reverse).map fun text => (text, rest)
  | none => read? cs

end Text

end Lightpay.Ron
