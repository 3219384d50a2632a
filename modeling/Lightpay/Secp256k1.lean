/-!
The curve `y² = x³ + 7` over the field of `2²⁵⁶ - 2³² - 977` elements (SEC 2, secp256k1), as far
as keys need it. The field's size is 3 modulo 4, so a square `a` has the root `a ^ ((p + 1) / 4)`.
-/

namespace Lightpay.Secp256k1

def fieldSize : Nat :=
  0xfffffffffffffffffffffffffffffffffffffffffffffffffffffffefffffc2f

def order : Nat :=
  0xfffffffffffffffffffffffffffffffebaaedce6af48a03bbfd25e8cd0364141

/-- A power in the field, for exponents of at most `bits` binary digits. -/
def power : (bits : Nat) → (base exponent : Nat) → Nat
  | 0, _, _ => 1
  | bits + 1, base, exponent =>
    let half := power bits (base * base % fieldSize) (exponent / 2)
    if exponent % 2 = 1 then base * half % fieldSize else half

def ordinateSquare (x : Nat) : Nat :=
  (x * x * x + 7) % fieldSize

def OnCurve (x y : Nat) : Prop :=
  x < fieldSize ∧ y < fieldSize ∧ y * y % fieldSize = ordinateSquare x

instance (x y : Nat) : Decidable (OnCurve x y) := inferInstanceAs (Decidable (_ ∧ _))

/-- A root of the square, if it has one. -/
def rootCandidate (x : Nat) : Nat :=
  power 256 (ordinateSquare x) ((fieldSize + 1) / 4)

def IsAbscissa (x : Nat) : Prop :=
  OnCurve x (rootCandidate x % fieldSize)

instance (x : Nat) : Decidable (IsAbscissa x) := inferInstanceAs (Decidable (OnCurve _ _))

end Lightpay.Secp256k1
