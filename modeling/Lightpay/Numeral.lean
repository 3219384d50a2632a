import Lightpay.Binary64
import Lightpay.Hex

/-!
Numbers as a text spells them, and the one text that each of them has: integers of 64 bits in
several bases, and decimals, which stand for the nearest binary fraction.
-/

namespace Lightpay

namespace Numeral

def sign : List Char → Bool × List Char
  | '-' :: rest => (true, rest)
  | '+' :: rest => (false, rest)
  | cs => (false, cs)

def signed (negative : Bool) (text : List Char) : List Char :=
  if negative then '-' :: text else text

def isDigit (base : Nat) (c : Char) : Bool :=
  (Hex.value? c).any (· < base)

def ofDigits (base : Nat) (digits : List Char) : Nat :=
  digits.foldl (fun n c => base * n + (Hex.value? c).getD 0) 0

def Fits64 (n : Int) : Prop :=
  Int64.minValue.toInt ≤ n ∧ n ≤ Int64.maxValue.toInt

instance (n : Int) : Decidable (Fits64 n) := by unfold Fits64; infer_instance

def integer? (base : Nat) (cs : List Char) : Option Int :=
  let (negative, digits) := sign cs
  let size : Int := ofDigits base digits
  let n := if negative then -size else size
  if digits ≠ [] ∧ digits.all (isDigit base) ∧ Fits64 n then some n else none

def integerText (n : Int) : List Char :=
  signed (n < 0) (Nat.toDigits 10 n.natAbs)

end Numeral

/-- The number `digits · 10 ^ exponent`, negated or not. -/
structure Decimal where
  negative : Bool
  digits : Nat
  exponent : Int
deriving DecidableEq, Repr

namespace Decimal

open Numeral

def exponent? (cs : List Char) : Option (Int × List Char) :=
  let (negative, rest) := sign cs
  match rest.span Char.isDigit with
  | ([], _) => none
  | (digits, rest) =>
    let size : Int := ofDigits 10 digits
    some (if negative then -size else size, rest)

def unsigned? (negative : Bool) (cs : List Char) : Option (Decimal × List Char) :=
  let (whole, rest) := cs.span Char.isDigit
  let (places, rest) :=
    match rest with
    | '.' :: rest => rest.span Char.isDigit
    | rest => ([], rest)
  let found (exponent : Int) : Decimal :=
    ⟨negative, ofDigits 10 (whole ++ places), exponent - places.length⟩
  if whole.isEmpty ∧ places.isEmpty then none
  else
    match rest with
    | 'e' :: rest => (exponent? rest).map fun (exponent, rest) => (found exponent, rest)
    | 'E' :: rest => (exponent? rest).map fun (exponent, rest) => (found exponent, rest)
    | rest => some (found 0, rest)

def ofText? (cs : List Char) : Option Decimal :=
  let (negative, cs) := sign cs
  match unsigned? negative cs with
  | some (found, []) => some found
  | _ => none

def text? (decimal : Decimal) : Option (List Char) :=
  (Binary64.ofDecimal decimal.digits decimal.exponent).map fun found =>
    signed decimal.negative found.digits

def text (decimal : Decimal) : List Char :=
  decimal.text?.getD (signed decimal.negative "inf".toList)

def singleText (decimal : Decimal) : List Char :=
  let found := Binary64.ofDecimal decimal.digits decimal.exponent Binary64.single
  signed decimal.negative ((found.map (·.digits)).getD "inf".toList)

end Decimal

end Lightpay
