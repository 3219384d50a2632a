import Lightpay.Proofs.Text.Hex
import Mathlib.Data.List.Induction

/-! Numbers and their base 256 digits. As many digits as a number was read from give
back the bytes, so at a fixed width numbers and byte strings are the same. -/

namespace Lightpay.Bytes

theorem toNat_concat (bytes : Bytes) (byte : UInt8) :
    toNat (bytes ++ [byte]) = 256 * toNat bytes + byte.toNat := by
  rw [toNat_append, List.foldl_cons, List.foldl_nil]

theorem toNat_cons (byte : UInt8) (bytes : Bytes) :
    toNat (byte :: bytes) = byte.toNat * 256 ^ bytes.length + toNat bytes := by
  induction bytes using List.reverseRecOn with
  | nil => simp [toNat]
  | append_singleton bytes last ih =>
    rw [← List.cons_append, toNat_concat, ih, toNat_concat, List.length_append,
      List.length_singleton, Nat.pow_succ, Nat.mul_add, ← Nat.mul_assoc, ← Nat.mul_assoc,
      Nat.mul_comm 256 byte.toNat, Nat.mul_right_comm, Nat.add_assoc]

theorem toNat_lt (bytes : Bytes) : toNat bytes < 256 ^ bytes.length := by
  induction bytes using List.reverseRecOn with
  | nil => decide
  | append_singleton bytes byte ih =>
    have hbyte : byte.toNat < 256 := byte.toNat_lt
    rw [toNat_concat, List.length_append, List.length_singleton, Nat.pow_succ]
    omega

theorem ofNat_toNat (bytes : Bytes) : ofNat bytes.length (toNat bytes) = bytes := by
  induction bytes using List.reverseRecOn with
  | nil => rfl
  | append_singleton bytes byte ih =>
    have hbyte : byte.toNat < 256 := byte.toNat_lt
    have hquotient : (256 * toNat bytes + byte.toNat) / 256 = toNat bytes := by omega
    have hlast : UInt8.ofNat (256 * toNat bytes + byte.toNat) = byte := by
      apply UInt8.toNat.inj
      rw [UInt8.toNat_ofNat']
      omega
    rw [toNat_concat, List.length_append, List.length_singleton, ofNat, hquotient, ih, hlast]

theorem toNat_eq_zero_iff (bytes : Bytes) : toNat bytes = 0 ↔ ∀ byte ∈ bytes, byte = 0 := by
  induction bytes using List.reverseRecOn with
  | nil => simp [toNat]
  | append_singleton bytes byte ih =>
    have hbyte : byte.toNat = 0 ↔ byte = 0 := UInt8.toNat_inj (b := 0)
    rw [toNat_concat, List.forall_mem_append, ← ih, List.forall_mem_singleton, ← hbyte]
    omega

theorem toNat_dropWhile_zero (bytes : Bytes) :
    toNat (bytes.dropWhile (· = 0)) = toNat bytes := by
  induction bytes with
  | nil => rfl
  | cons byte bytes ih =>
    by_cases hzero : byte = 0
    · rw [List.dropWhile_cons_of_pos (by simpa using hzero), ih, toNat_cons, hzero]
      simp
    · rw [List.dropWhile_cons_of_neg (by simpa using hzero)]

theorem head?_dropWhile_zero (bytes : Bytes) : (bytes.dropWhile (· = 0)).head? ≠ some 0 := by
  intro hhead
  have hkept := List.head?_dropWhile_not (fun byte : UInt8 => decide (byte = 0)) bytes
  rw [hhead] at hkept
  simp at hkept

theorem length_le_of_toNat_lt {bytes : Bytes} {width : Nat} (hhead : bytes.head? ≠ some 0)
    (hlt : toNat bytes < 256 ^ width) : bytes.length ≤ width := by
  cases bytes with
  | nil => exact Nat.zero_le width
  | cons byte bytes =>
    have hpos : 0 < byte.toNat := by
      rw [Nat.pos_iff_ne_zero]
      intro hzero
      exact hhead (congrArg some (UInt8.toNat.inj hzero))
    have hpower : 256 ^ bytes.length < 256 ^ width := by
      refine Nat.lt_of_le_of_lt ?_ hlt
      rw [toNat_cons]
      exact Nat.le_trans (Nat.le_mul_of_pos_left _ hpos) (Nat.le_add_right _ _)
    exact (Nat.pow_lt_pow_iff_right (by decide)).1 hpower

/-- Without zeros in front, a number has one digit string. -/
theorem eq_of_toNat_eq {left right : Bytes} (hleft : left.head? ≠ some 0)
    (hright : right.head? ≠ some 0) (h : toNat left = toNat right) : left = right := by
  have hlength : left.length = right.length :=
    Nat.le_antisymm (length_le_of_toNat_lt hleft (h ▸ toNat_lt right))
      (length_le_of_toNat_lt hright (h ▸ toNat_lt left))
  rw [← ofNat_toNat left, hlength, h, ofNat_toNat]

end Lightpay.Bytes
