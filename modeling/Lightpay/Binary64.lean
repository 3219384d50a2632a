/-!
Decimal fractions in 64 bits (IEEE 754). A decimal stands for the nearest value `m · 2^e`, an even
`m` where two are as near. A value is written in full, with the fewest digits that stand for it.
-/

namespace Lightpay

/-- The value `mantissa · 2 ^ exponent`. The mantissa has 53 bits, fewer at the least exponent. -/
structure Binary64 where
  mantissa : Nat
  exponent : Int
deriving DecidableEq, Repr

namespace Binary64

structure Precision where
  leastFull : Nat
  leastExponent : Int
  greatestExponent : Int
deriving DecidableEq, Repr

def double : Precision := ⟨0x10000000000000, -1074, 971⟩

def single : Precision := ⟨0x800000, -149, 104⟩

def roundDiv (n d : Nat) : Nat :=
  let quotient := n / d
  let twice := 2 * (n % d)
  if twice < d then quotient
  else if d < twice then quotient + 1
  else quotient + quotient % 2

def shift (n d : Nat) (e : Int) : Nat × Nat :=
  (n <<< (-e).toNat, d <<< e.toNat)

def Precision.nearest (precision : Precision) (n d : Nat) : Option (Nat × Int) :=
  let full := precision.leastFull
  let guess := max precision.leastExponent ((n.log2 : Int) - d.log2 - full.log2 - 1)
  let (p, q) := shift n d guess
  let exponent := if 2 * full ≤ p / q then guess + 1 else guess
  let (p, q) := shift n d exponent
  let mantissa := roundDiv p q
  let (mantissa, exponent) :=
    if mantissa = 2 * full then (full, exponent + 1) else (mantissa, exponent)
  if precision.greatestExponent < exponent then none else some (mantissa, exponent)

def nearest (n d : Nat) : Option Binary64 :=
  (double.nearest n d).map fun (mantissa, exponent) => ⟨mantissa, exponent⟩

structure Neighbourhood where
  low : Nat
  value : Nat
  high : Nat
  closed : Bool
deriving DecidableEq, Repr

/-- Half the way to the next values; the one below a power of two is nearer. -/
def neighbourhood (value : Binary64) : Neighbourhood :=
  let place := (value.exponent - double.leastExponent).toNat
  let quarters := 4 * value.mantissa
  let isPower := value.mantissa = double.leastFull ∧ double.leastExponent < value.exponent
  let below := if isPower then 1 else 2
  ⟨(quarters - below) <<< place, quarters <<< place, (quarters + 2) <<< place,
    value.mantissa % 2 = 0⟩

def Neighbourhood.point (digits : Nat) (exponent : Int) : Nat :=
  (digits * Nat.pow 10 exponent.toNat) <<< 1076

def Neighbourhood.contains (near : Neighbourhood) (digits : Nat) (exponent : Int) : Bool :=
  let scale := Nat.pow 10 (-exponent).toNat
  let point := point digits exponent
  if near.closed then near.low * scale ≤ point && point ≤ near.high * scale
  else near.low * scale < point && point < near.high * scale

def Neighbourhood.fewestDigits (near : Neighbourhood) : (steps : Nat) → (exponent : Int) → Nat × Int
  | 0, exponent => (0, exponent)
  | steps + 1, exponent =>
    let value := near.value * Nat.pow 10 (-exponent).toNat
    let below := value / point 1 exponent
    match near.contains below exponent, near.contains (below + 1) exponent with
    | false, false => fewestDigits near steps (exponent - 1)
    | true, false => (below, exponent)
    | false, true => (below + 1, exponent)
    | true, true =>
      if 2 * value < (2 * below + 1) * point 1 exponent then (below, exponent)
      else (below + 1, exponent)

def plainDigits (digits : Nat) (exponent : Int) : List Char :=
  let shown := Nat.toDigits 10 digits
  let places := (-exponent).toNat
  if places = 0 then shown ++ List.replicate exponent.toNat '0'
  else
    let padded := List.replicate (places + 1 - shown.length) '0' ++ shown
    padded.take (padded.length - places) ++ '.' :: padded.drop (padded.length - places)

def digits (value : Binary64) : List Char :=
  if value.mantissa = 0 then ['0']
  else
    let (digits, exponent) := value.neighbourhood.fewestDigits 650 309
    plainDigits digits exponent

def ofDecimal (digits : Nat) (exponent : Int) (precision : Precision := double) :
    Option Binary64 := do
  let size := ((Nat.toDigits 10 digits).length : Int) + exponent
  if digits = 0 ∨ size < -330 then return ⟨0, double.leastExponent⟩
  else if 330 < size then none
  else
    let (mantissa, exponent) ←
      precision.nearest (digits * Nat.pow 10 exponent.toNat) (Nat.pow 10 (-exponent).toNat)
    let (n, d) := shift mantissa 1 (-exponent)
    nearest n d

def times? (a b : Binary64) : Option Binary64 :=
  let (n, d) := shift (a.mantissa * b.mantissa) 1 (-(a.exponent + b.exponent))
  nearest n d

def over? (a b : Binary64) : Option Binary64 :=
  let (n, d) := shift a.mantissa b.mantissa (b.exponent - a.exponent)
  nearest n d

end Binary64

end Lightpay
