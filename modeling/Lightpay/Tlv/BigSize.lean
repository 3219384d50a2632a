import Lightpay.Bytes
import Lightpay.Tlv.Error

/-!
BigSize numbers (BOLT 1): one byte, or a marker byte and two, four or eight more. Each number has
one form, the shortest; reading rejects the others.
-/

namespace Lightpay.Tlv.BigSize

def form? (first : UInt8) : Option (Nat × Nat) :=
  if first = 0xfd then some (2, 0xfd)
  else if first = 0xfe then some (4, 0x10000)
  else if first = 0xff then some (8, 0x100000000)
  else none

def encode (n : UInt64) : Bytes :=
  if n.toNat < 0xfd then [n.toUInt8]
  else if n.toNat < 0x10000 then 0xfd :: Bytes.ofNat 2 n.toNat
  else if n.toNat < 0x100000000 then 0xfe :: Bytes.ofNat 4 n.toNat
  else 0xff :: Bytes.ofNat 8 n.toNat

/-- Reads one number from the front. The bytes come back without those that the attempt has
used up: the marker when too few follow it, the whole form when a shorter one would do. -/
def decode : Bytes → Except Error UInt64 × Bytes
  | [] => (.error .unexpectedEnd, [])
  | first :: rest =>
    match form? first with
    | none => (.ok first.toUInt64, rest)
    | some (width, least) =>
      let body := rest.take width
      if body.length < width then (.error .unexpectedEnd, rest)
      else if Bytes.toNat body < least then (.error .nonCanonical, rest.drop width)
      else (.ok (UInt64.ofNat (Bytes.toNat body)), rest.drop width)

def read (bytes : Bytes) : Except Error (UInt64 × Bytes) :=
  match decode bytes with
  | (.ok n, rest) => .ok (n, rest)
  | (.error e, _) => .error e

theorem length_rest_lt {bytes rest : Bytes} {n : UInt64} (h : read bytes = .ok (n, rest)) :
    rest.length < bytes.length := by
  cases bytes with
  | nil => simp [read, decode] at h
  | cons first tail =>
    simp only [read, decode] at h
    split at h
    · rename_i m r heq
      cases h
      split at heq
      · cases heq; simp
      · split at heq
        · cases heq
        · split at heq
          · cases heq
          · cases heq; simp only [List.length_drop, List.length_cons]; omega
    · cases h

/-- All the numbers from the front up to the first failure, each with what its reading left. -/
def decodeAll (bytes : Bytes) : List (Except Error UInt64 × Bytes) :=
  match _ : read bytes with
  | .ok (n, rest) => (.ok n, rest) :: decodeAll rest
  | .error _ => [decode bytes]
termination_by bytes.length
decreasing_by exact length_rest_lt ‹_›

end Lightpay.Tlv.BigSize
