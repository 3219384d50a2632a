import Lightpay.Hex
import Lightpay.Secp256k1

/-!
Public keys are points of the curve, secret keys are scalars. A public key is read from its
compressed, uncompressed or hybrid form and always written compressed.
-/

namespace Lightpay

/-- A point, given by its abscissa and the parity of its ordinate. -/
structure PublicKey where
  x : Nat
  yIsOdd : Bool
  onCurve : Secp256k1.IsAbscissa x
deriving DecidableEq

structure SecretKey where
  scalar : Nat
  pos : 0 < scalar
  lt_order : scalar < Secp256k1.order
deriving DecidableEq

namespace PublicKey

def ofAbscissa? (x : Nat) (yIsOdd : Bool) : Option PublicKey :=
  if h : Secp256k1.IsAbscissa x then some ⟨x, yIsOdd, h⟩ else none

/-- Tag 2 or 3 and an abscissa, the tag telling the parity of the ordinate; or tag 4 and both
coordinates; or tag 6 or 7 and both coordinates, the tag telling the parity as well. -/
def ofBytes? : Bytes → Option PublicKey
  | [] => none
  | tag :: rest =>
    if rest.length = 32 then
      if tag = 2 ∨ tag = 3 then ofAbscissa? (Bytes.toNat rest) (tag = 3) else none
    else if rest.length = 64 then
      let x := Bytes.toNat (rest.take 32)
      let y := Bytes.toNat (rest.drop 32)
      let odd := y % 2 = 1
      if Secp256k1.OnCurve x y ∧ (tag = 4 ∨ (tag = 6 ∧ ¬ odd) ∨ (tag = 7 ∧ odd)) then
        ofAbscissa? x odd
      else none
    else none

def bytes (key : PublicKey) : Bytes :=
  (if key.yIsOdd then 3 else 2) :: Bytes.ofNat 32 key.x

def text (key : PublicKey) : String :=
  Hex.encode key.bytes

def parse? (text : String) : Option PublicKey :=
  match Hex.decode text with
  | .ok bytes => ofBytes? bytes
  | .error _ => none

end PublicKey

namespace SecretKey

def ofBytes? (bytes : Bytes) : Option SecretKey :=
  let scalar := Bytes.toNat bytes
  if bytes.length ≠ 32 then none
  else if h : 0 < scalar ∧ scalar < Secp256k1.order then some ⟨scalar, h.1, h.2⟩ else none

def bytes (key : SecretKey) : Bytes :=
  Bytes.ofNat 32 key.scalar

def text (key : SecretKey) : String :=
  Hex.encode key.bytes

def parse? (text : String) : Option SecretKey :=
  match Hex.decode text with
  | .ok bytes => ofBytes? bytes
  | .error _ => none

end SecretKey

end Lightpay
