import Lightpay.Numeral

/-!
Numbers of a TOML document: integers of 64 bits and binary fractions. Each is read into its plain
decimal text, which has no needless sign, zero or exponent.
-/

namespace Lightpay.Toml.Number

open Numeral

/-- Further digits; a single underscore may stand before each. -/
def moreDigits (isDigit : Char → Bool) (done : List Char) :
    List Char → Option (List Char × List Char)
  | [] => some (done.reverse, [])
  | '_' :: rest =>
    match rest with
    | c :: rest => if isDigit c then moreDigits isDigit (c :: done) rest else none
    | [] => none
  | c :: rest =>
    if isDigit c then moreDigits isDigit (c :: done) rest else some (done.reverse, c :: rest)

def digits? (isDigit : Char → Bool) : List Char → Option (List Char × List Char)
  | [] => none
  | c :: rest => if isDigit c then moreDigits isDigit [c] rest else none

def based? (base : Nat) (cs : List Char) : Option (List Char × List Char) := do
  let (digits, rest) ← digits? (isDigit base) cs
  return (integerText (← integer? base digits), rest)

def places? : List Char → Option (List Char × List Char)
  | '.' :: rest => digits? Char.isDigit rest
  | rest => some ([], rest)

def exponent? : List Char → Option (Option Int × List Char)
  | c :: rest =>
    if c = 'e' ∨ c = 'E' then do
      let (negative, rest) := sign rest
      let (digits, rest) ← digits? Char.isDigit rest
      let size : Int := ofDigits 10 digits
      return (some (if negative then -size else size), rest)
    else some (none, c :: rest)
  | [] => some (none, [])

def decimal? (negative : Bool) (cs : List Char) : Option (List Char × List Char) := do
  let (whole, rest) ← digits? Char.isDigit cs
  if whole.head? = some '0' ∧ whole.length ≠ 1 then none
  else
    let (places, rest) ← places? rest
    let (exponent, rest) ← exponent? rest
    let text ←
      if places.isEmpty ∧ exponent.isNone then
        (integer? 10 (signed negative whole)).map integerText
      else
        let digits := ofDigits 10 (whole ++ places)
        Decimal.text? ⟨negative, digits, exponent.getD 0 - places.length⟩
    return (text, rest)

def read? (cs : List Char) : Option (List Char × List Char) :=
  match cs with
  | '0' :: 'x' :: rest => based? 16 rest
  | '0' :: 'o' :: rest => based? 8 rest
  | '0' :: 'b' :: rest => based? 2 rest
  | _ =>
    match sign cs with
    | (negative, 'i' :: 'n' :: 'f' :: rest) => some (signed negative "inf".toList, rest)
    | (_, 'n' :: 'a' :: 'n' :: rest) => some ("NaN".toList, rest)
    | (negative, rest) => decimal? negative rest

end Lightpay.Toml.Number
