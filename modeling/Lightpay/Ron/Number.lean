import Lightpay.Ron.Text

/-!
The numbers of a RON text, each of which is read into its plain decimal text. A number may say in
how many bits it has to fit; an integer that says nothing is a fraction if 64 bits do not hold it.
-/

namespace Lightpay.Ron.Number

open Numeral

structure Width where
  suffix : String
  least : Int
  greatest : Int
deriving DecidableEq, Repr

namespace Width

def signedBits (suffix : String) (bits : Nat) : Width :=
  ⟨suffix, -(1 <<< (bits - 1) : Nat), (1 <<< (bits - 1) : Nat) - 1⟩

def unsignedBits (suffix : String) (bits : Nat) : Width :=
  ⟨suffix, 0, (1 <<< bits : Nat) - 1⟩

def all : List Width :=
  [signedBits "i8" 8, signedBits "i16" 16, signedBits "i32" 32, signedBits "i64" 64,
    unsignedBits "u8" 8, unsignedBits "u16" 16, unsignedBits "u32" 32, unsignedBits "u64" 64]

def unsaid (negative : Bool) : Width :=
  if negative then signedBits "" 64 else unsignedBits "" 64

def admits (width : Width) (n : Int) : Bool :=
  width.least ≤ n && n ≤ width.greatest

end Width

def base : List Char → Nat × List Char
  | '0' :: 'x' :: rest => (16, rest)
  | '0' :: 'o' :: rest => (8, rest)
  | '0' :: 'b' :: rest => (2, rest)
  | cs => (10, cs)

def isWholeChar (c : Char) : Bool :=
  isDigit 16 c || c = '_'

def suffix? (suffix : String) (cs : List Char) : Option (List Char) :=
  match Name.read? cs with
  | some (name, rest) => if name.isWord suffix then some rest else none
  | none => none

def width (negative : Bool) (cs : List Char) : Width × List Char :=
  let said := Width.all.findSome? fun width =>
    (suffix? width.suffix cs).map fun rest => (width, rest)
  said.getD (.unsaid negative, cs)

def integer? (negative : Bool) (cs : List Char) : Option (List Char × List Char) :=
  let (base, rest) := base cs
  let (digits, rest) := rest.span isWholeChar
  let size : Int := ofDigits base (digits.filter (· ≠ '_'))
  let n := if negative then -size else size
  let (width, rest) := width negative rest
  if digits = [] ∨ digits.head? = some '_' then none
  else if digits.all (fun c => isDigit base c || c = '_') ∧ width.admits n then
    some (integerText n, rest)
  else none

def isFractionChar (c : Char) : Bool :=
  c.isDigit || c = '.' || c = 'e' || c = 'E' || c = '+' || c = '-' || c = '_'

def fractionChars : List Char → List Char
  | '.' :: '.' :: _ => []
  | c :: rest => if isFractionChar c then c :: fractionChars rest else []
  | [] => []

/-- A fraction without its underscores, each of which has to stand behind a digit, the letter of
the exponent or another underscore; signs do not count. -/
def withoutUnderscores? (behindDigit : Bool) : List Char → Option (List Char)
  | [] => some []
  | '_' :: rest => if behindDigit then withoutUnderscores? true rest else none
  | c :: rest =>
    let behindDigit :=
      if c.isDigit ∨ c = 'e' ∨ c = 'E' then true else if c = '.' then false else behindDigit
    (withoutUnderscores? behindDigit rest).map (c :: ·)

def fraction? (negative : Bool) (cs : List Char) : Option (List Char × List Char) := do
  let shown := fractionChars cs
  let rest := cs.drop shown.length
  if shown.head?.any fun c => c = '+' || c = '-' then none
  let found ← Decimal.ofText? (← withoutUnderscores? false shown)
  let found := { found with negative }
  match suffix? "f32" rest, suffix? "f64" rest with
  | some rest, _ => return (found.singleText, rest)
  | none, some rest => return (found.text, rest)
  | none, none => return (found.text, rest)

def word? (negative : Bool) (cs : List Char) : Option (List Char × List Char) := do
  let (name, rest) ← Name.read? cs
  if ["inf", "inff32", "inff64"].any name.isWord then
    return (signed negative "inf".toList, rest)
  else if ["NaN", "NaNf32", "NaNf64"].any name.isWord then return ("NaN".toList, rest)
  else none

/-- A number in front. What has more characters as a fraction is no integer. -/
def read? (cs : List Char) : Option (List Char × List Char) :=
  match Text.byte? cs with
  | some (found, rest) => some (Nat.toDigits 10 found.toNat, rest)
  | none =>
    let (negative, behind) := sign cs
    let whole := behind.takeWhile isWholeChar
    if whole.length < (fractionChars behind).length then fraction? negative behind
    else
      ((word? negative behind).or (integer? negative behind)).or (fraction? negative behind)

end Lightpay.Ron.Number
