import Lightpay.Numeral

/-!
Numbers of a JSON text outside the records. An integer stands for itself as far as 64 bits hold it.
Any other number is read in steps that each round to the nearest binary fraction: the digits that
fit into 64 bits first, then a power of ten for the rest.
-/

namespace Lightpay.Json.Number

open Numeral

def gather (n : Nat) : List Char → Nat × List Char
  | [] => (n, [])
  | c :: rest =>
    let next := 10 * n + (Hex.value? c).getD 0
    if next < UInt64.size then gather next rest else (n, c :: rest)

def greatestStep : Int := 308

def power? (exponent : Int) : Option Binary64 := Binary64.ofDecimal 1 exponent

def scale? : (steps : Nat) → Binary64 → (exponent : Int) → Option Binary64
  | steps, value, exponent =>
    if value.mantissa = 0 then some value
    else if exponent.natAbs ≤ greatestStep.natAbs then do
      let power ← power? exponent.natAbs
      if 0 ≤ exponent then value.times? power else value.over? power
    else
      match steps with
      | 0 => none
      | steps + 1 => do
        if 0 < exponent then none
        else scale? steps (← value.over? (← power? greatestStep)) (exponent + greatestStep)

/-- The text of a number with a fraction, an exponent or too many digits. -/
def fractionText? (negative : Bool) (whole places : List Char) (exponent : Int) :
    Option (List Char) := do
  let (n, idle) := gather 0 whole
  let (n, unused) := gather n places
  let exponent := exponent + idle.length - (places.length - unused.length : Nat)
  let value ← scale? 3 (← Binary64.ofDecimal n 0) exponent
  return signed negative value.digits

def integerText? (negative : Bool) (digits : List Char) : Option (List Char) :=
  let n := ofDigits 10 digits
  if ¬ negative ∧ n < UInt64.size then some (Nat.toDigits 10 n)
  else if negative ∧ 0 < n ∧ Fits64 (-n) then some ('-' :: Nat.toDigits 10 n)
  else fractionText? negative digits [] 0

def text? (cs : List Char) : Option (List Char) :=
  let (negative, cs) := sign cs
  let (whole, rest) := cs.span Char.isDigit
  let (places, rest) :=
    match rest with
    | '.' :: rest => rest.span Char.isDigit
    | rest => ([], rest)
  match rest with
  | [] =>
    if places.isEmpty then integerText? negative whole else fractionText? negative whole places 0
  | _ :: rest => do
    let (exponent, _) ← Decimal.exponent? rest
    fractionText? negative whole places exponent

end Lightpay.Json.Number
