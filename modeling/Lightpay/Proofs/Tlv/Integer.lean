import Lightpay.Proofs.Tlv.Digits
import Lightpay.Tlv.Integer

/-! Integers as record values. A truncated integer has one value and at most the bytes
that its type has room for, so nothing is lost when it is narrowed. -/

namespace Lightpay.Tlv

/-- At most `width` bytes, and none of them a zero in front. -/
def TruncatedTo (width : Nat) (value : Bytes) : Prop := value.length ≤ width ∧ value.head? ≠ some 0

variable {width : Nat} {type : UInt64} {value : Bytes}

theorem toNat_lt_of_truncatedTo (h : TruncatedTo width value) : Bytes.toNat value < 256 ^ width :=
  Nat.lt_of_lt_of_le (Bytes.toNat_lt value) (Nat.pow_le_pow_right (by decide) h.1)

theorem readTruncated_eq_ok_iff {n : Nat} :
    readTruncated width type value = .ok n ↔ TruncatedTo width value ∧ Bytes.toNat value = n := by
  rw [readTruncated, TruncatedTo]
  split
  · rename_i hlong
    exact iff_of_false nofun fun h => Nat.not_lt.2 h.1.1 hlong
  split
  · rename_i hzero
    exact iff_of_false nofun fun h => h.1.2 hzero
  · rename_i hlength hhead
    simp [Nat.not_lt.1 hlength, hhead]

theorem map_readTruncated_eq_ok_iff {α : Type} {ofNat : Nat → α} {toNat : α → Nat}
    (hnarrow : ∀ m < 256 ^ width, ∀ a, ofNat m = a ↔ m = toNat a) {a : α} :
    (readTruncated width type value).map ofNat = .ok a ↔
      TruncatedTo width value ∧ Bytes.toNat value = toNat a := by
  cases hread : readTruncated width type value with
  | error e =>
    refine iff_of_false nofun fun h => ?_
    cases hread.symm.trans (readTruncated_eq_ok_iff.2 ⟨h.1, rfl⟩)
  | ok m =>
    obtain ⟨hwidth, rfl⟩ := readTruncated_eq_ok_iff.1 hread
    simp [Except.map, hwidth, hnarrow _ (toNat_lt_of_truncatedTo hwidth)]

theorem readTu64_eq_ok_iff {n : UInt64} :
    readTu64 type value = .ok n ↔ TruncatedTo 8 value ∧ Bytes.toNat value = n.toNat := by
  apply map_readTruncated_eq_ok_iff
  intro m hm n
  rw [UInt64.ofNat_eq_iff_mod_eq_toNat]
  omega

theorem readTu32_eq_ok_iff {n : UInt32} :
    readTu32 type value = .ok n ↔ TruncatedTo 4 value ∧ Bytes.toNat value = n.toNat := by
  apply map_readTruncated_eq_ok_iff
  intro m hm n
  rw [UInt32.ofNat_eq_iff_mod_eq_toNat]
  omega

theorem readU64_eq_ok_iff {n : UInt64} :
    readU64 type value = .ok n ↔ value.length = 8 ∧ Bytes.toNat value = n.toNat := by
  rw [readU64]
  split
  · rename_i hlength
    have hlt := Bytes.toNat_lt value
    rw [hlength] at hlt
    rw [Except.ok.injEq, UInt64.ofNat_eq_iff_mod_eq_toNat]
    omega
  · rename_i hlength
    exact iff_of_false nofun fun h => hlength h.1

theorem toNat_truncated (n : UInt64) : Bytes.toNat (truncated n) = n.toNat := by
  rw [truncated, Bytes.toNat_dropWhile_zero, Bytes.toNat_ofNat 8 n.toNat n.toNat_lt]

theorem truncatedTo_truncated {n : UInt64} (hn : n.toNat < 256 ^ width) :
    TruncatedTo width (truncated n) := by
  have hhead : (truncated n).head? ≠ some 0 := Bytes.head?_dropWhile_zero _
  refine ⟨Bytes.length_le_of_toNat_lt hhead ?_, hhead⟩
  rwa [toNat_truncated]

theorem length_truncated_le (n : UInt64) : (truncated n).length ≤ 8 := by
  have hwidth : TruncatedTo 8 (truncated n) := truncatedTo_truncated n.toNat_lt
  exact hwidth.1

theorem toNat_fixed (n : UInt64) : Bytes.toNat (fixed n) = n.toNat :=
  Bytes.toNat_ofNat 8 n.toNat n.toNat_lt

theorem eq_truncated_iff {n : UInt64} (h : TruncatedTo width value) :
    value = truncated n ↔ Bytes.toNat value = n.toNat := by
  constructor
  · rintro rfl
    exact toNat_truncated n
  · intro hvalue
    refine Bytes.eq_of_toNat_eq h.2 (Bytes.head?_dropWhile_zero _) ?_
    rw [hvalue, toNat_truncated]

theorem truncatedTo_and_toNat_iff {n : UInt64} (hn : n.toNat < 256 ^ width) :
    TruncatedTo width value ∧ Bytes.toNat value = n.toNat ↔ value = truncated n := by
  constructor
  · rintro ⟨hwidth, hvalue⟩
    exact (eq_truncated_iff hwidth).2 hvalue
  · rintro rfl
    exact ⟨truncatedTo_truncated hn, toNat_truncated n⟩

theorem eq_fixed_iff {n : UInt64} (hlength : value.length = 8) :
    value = fixed n ↔ Bytes.toNat value = n.toNat := by
  constructor
  · rintro rfl
    exact toNat_fixed n
  · intro hvalue
    rw [fixed, ← hvalue, ← hlength, Bytes.ofNat_toNat]

end Lightpay.Tlv
