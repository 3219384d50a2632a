/-!
Amounts in thousandths of a satoshi. Addition stops at the largest amount, so a sum is the
smaller of the exact sum and that amount.
-/

namespace Lightpay

structure Amount where
  msat : UInt64
deriving DecidableEq, Repr

namespace Amount

def zero : Amount := ⟨0⟩

def ofNatSaturating (n : Nat) : Amount :=
  ⟨UInt64.ofNat (min n (UInt64.size - 1))⟩

def add (a b : Amount) : Amount :=
  ofNatSaturating (a.msat.toNat + b.msat.toNat)

instance : Add Amount := ⟨add⟩

def sum (amounts : List Amount) : Amount :=
  amounts.foldl (· + ·) zero

def checkedAdd (a b : Amount) : Option Amount :=
  if a.msat.toNat + b.msat.toNat < UInt64.size then some ⟨a.msat + b.msat⟩ else none

def checkedSub (a b : Amount) : Option Amount :=
  if b.msat ≤ a.msat then some ⟨a.msat - b.msat⟩ else none

def ofSat (sat : UInt64) : Amount := ⟨sat * 1000⟩

/-- Whole satoshis, rounded down. -/
def toSat (a : Amount) : UInt64 := a.msat / 1000

def compare (a b : Amount) : Ordering := compareOfLessAndEq a.msat b.msat

def text (a : Amount) : String := toString a.msat.toNat ++ " mSAT"

end Amount

end Lightpay
