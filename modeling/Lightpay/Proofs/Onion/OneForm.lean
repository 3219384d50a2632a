import Lightpay.Proofs.Onion.Writing

/-! Values with one form each. A truncated integer and a multi-part record can be written in one
way only, and reading takes nothing else. What is refused is of a length that no form has, or has
a zero byte in front of its number. -/

namespace Lightpay.Onion

open Tlv

/-- Reading takes the written forms, each as what was written. All other values are refused, each
with its fault. -/
structure OneForm {α : Type} (read : Bytes → Except Tlv.Error α) (write : α → Bytes)
    (fault : Bytes → Tlv.Error) : Prop where
  read_iff : ∀ value a, read value = .ok a ↔ value = write a
  refused_iff : ∀ value e, read value = .error e ↔ (∀ a, value ≠ write a) ∧ e = fault value

/-- The fault of a value that is no form: its length if no form is so short or so long, and
otherwise the zero byte in front of its number. -/
def misfit (least most : Nat) (type : UInt64) (value : Bytes) : Tlv.Error :=
  if value.length < least ∨ most < value.length then .invalidLength type value.length
  else .nonMinimal type

variable {α : Type} {read : Bytes → Except Tlv.Error α} {write : α → Bytes}
  {fault : Bytes → Tlv.Error} {least most width : Nat} {type : UInt64} {value : Bytes}
  {e : Tlv.Error}

/-- It is enough to know which values are read, and the one fault that each can have. -/
theorem OneForm.of_read_iff (hread : ∀ value a, read value = .ok a ↔ value = write a)
    (hfault : ∀ value e, read value = .error e → e = fault value) : OneForm read write fault where
  read_iff := hread
  refused_iff value e := by
    constructor
    · intro h
      refine ⟨fun a hform => ?_, hfault value e h⟩
      cases h.symm.trans ((hread value a).2 hform)
    · rintro ⟨hnone, rfl⟩
      cases h : read value with
      | ok a => exact absurd ((hread value a).1 h) (hnone a)
      | error e => rw [hfault value e h]

theorem misfit_of_length (h : value.length < least ∨ most < value.length) :
    misfit least most type value = .invalidLength type value.length := if_pos h

theorem misfit_of_le (hleast : least ≤ value.length) (hmost : value.length ≤ most) :
    misfit least most type value = .nonMinimal type :=
  if_neg fun h => h.elim (Nat.not_lt.2 hleast) (Nat.not_lt.2 hmost)

theorem eq_misfit_of_readTruncated (h : readTruncated width type value = .error e) :
    e = misfit 0 width type value := by
  rw [readTruncated] at h
  split at h
  · rename_i hlong
    cases h
    rw [misfit_of_length (.inr hlong)]
  · rename_i hshort
    rw [misfit_of_le (Nat.zero_le _) (Nat.not_lt.1 hshort)]
    split at h
    · cases h
      rfl
    · cases h

theorem oneForm_readTu64 (type : UInt64) : OneForm (readTu64 type) truncated (misfit 0 8 type) := by
  refine .of_read_iff (fun value n => ?_) fun value e h => ?_
  · rw [readTu64_eq_ok_iff, truncatedTo_and_toNat_iff n.toNat_lt]
  · exact eq_misfit_of_readTruncated (map_eq_error_iff.1 h)

theorem oneForm_readTu32 (type : UInt64) :
    OneForm (readTu32 type) (fun n => truncated n.toUInt64) (misfit 0 4 type) := by
  refine .of_read_iff (fun value n => ?_) fun value e h => ?_
  · rw [readTu32_eq_ok_iff, ← UInt32.toNat_toUInt64, truncatedTo_and_toNat_iff]
    exact n.toNat_lt
  · exact eq_misfit_of_readTruncated (map_eq_error_iff.1 h)

theorem widen_readTu32_eq_ok_iff {n : UInt64} :
    (readTu32 type value).map UInt32.toUInt64 = .ok n ↔
      value = truncated n ∧ n.toNat < UInt32.size := by
  rw [map_eq_ok_iff]
  constructor
  · rintro ⟨m, hread, rfl⟩
    exact ⟨((oneForm_readTu32 type).read_iff value m).1 hread, m.toNat_lt⟩
  · rintro ⟨hform, hn⟩
    have hkept : n.toUInt32.toUInt64 = n := by
      apply UInt64.toNat.inj
      rw [UInt32.toNat_toUInt64, UInt64.toNat_toUInt32]
      exact Nat.mod_eq_of_lt hn
    refine ⟨n.toUInt32, ((oneForm_readTu32 type).read_iff value _).2 ?_, hkept⟩
    rw [hkept, hform]

theorem toNat_readTu32 (type : UInt64) (value : Bytes) :
    (readTu32 type value).map UInt32.toNat = readTruncated 4 type value := by
  rw [readTu32]
  cases hread : readTruncated 4 type value with
  | error e => rfl
  | ok m =>
    obtain ⟨hwidth, rfl⟩ := readTruncated_eq_ok_iff.1 hread
    exact congrArg Except.ok (UInt32.toNat_ofNat_of_lt' (toNat_lt_of_truncatedTo hwidth))

theorem MultiPart.eq_misfit_of_decode (h : decode value = .error e) :
    e = misfit 32 40 recordType value := by
  rw [decode] at h
  split at h
  · rename_i haddress
    have hshort : value.length < 32 := by
      rw [ofBytes?_eq_none_iff, List.length_take] at haddress
      omega
    cases h
    rw [misfit_of_length (.inl hshort)]
  · rename_i address haddress
    have hlong : 32 ≤ value.length := by
      rw [← address.length_bytes, ← ofBytes?_eq_some_iff.1 haddress]
      exact List.length_take_le' 32 value
    split at h
    · rename_i htooLong
      cases h
      rw [misfit_of_length (.inr htooLong)]
    · rename_i hshort
      have htotal : (value.drop 32).length ≤ 8 := by
        rw [List.length_drop]
        omega
      rcases bind_eq_error_iff.1 h with hread | ⟨total, _, h⟩
      · obtain ⟨_, rfl⟩ := ((oneForm_readTu64 recordType).refused_iff _ e).1 hread
        rw [misfit_of_le (Nat.zero_le _) htotal, misfit_of_le hlong (Nat.not_lt.1 hshort)]
      · cases h

theorem MultiPart.oneForm : OneForm decode encode (misfit 32 40 recordType) :=
  .of_read_iff (fun _ _ => decode_eq_ok_iff.trans spells_iff) fun _ _ => eq_misfit_of_decode

theorem MultiPart.exists_appended {writer : Writer} (part : MultiPart)
    (hafter : After writer.last recordType) :
    ∃ next, (Writing.Entry.multiPart part).write writer = .ok next ∧
      ∀ value, decode value = .ok part ↔
        next.bytes = writer.bytes ++ Record.encode ⟨recordType, value⟩ := by
  obtain ⟨next, hwrite, hbytes⟩ := Writing.exists_write (.multiPart part) hafter
  refine ⟨next, hwrite, fun value => ?_⟩
  rw [hbytes, List.append_cancel_left_eq, Record.encode_injective.eq_iff, oneForm.read_iff,
    Writing.Entry.record, Record.mk.injEq, eq_self, true_and, eq_comm]

/-- Truncated integers of either width and multi-part records have one form each, which is what is
written for them, and no other value is read. Four bytes hold the numbers below their bound, so
nothing is lost where a number is narrowed. A refusal names the length of the whole value if no
form has it, whatever stands in front, and otherwise the zero in front of the number. -/
theorem one_form_each :
    (∀ type, OneForm (readTu64 type) truncated (misfit 0 8 type) ∧
      OneForm (readTu32 type) (fun n => truncated n.toUInt64) (misfit 0 4 type) ∧
      ∀ value, (readTu32 type value).map UInt32.toNat = readTruncated 4 type value ∧
        ∀ n, (readTu32 type value).map UInt32.toUInt64 = .ok n ↔
          value = truncated n ∧ n.toNat < UInt32.size) ∧
      OneForm MultiPart.decode MultiPart.encode (misfit 32 40 MultiPart.recordType) ∧
      ∀ writer part, After writer.last MultiPart.recordType →
        ∃ next, (Writing.Entry.multiPart part).write writer = .ok next ∧
          ∀ value, MultiPart.decode value = .ok part ↔
            next.bytes = writer.bytes ++ Record.encode ⟨MultiPart.recordType, value⟩ := by
  refine ⟨fun type => ?integers, MultiPart.oneForm, fun _ part => part.exists_appended⟩
  case integers =>
    refine ⟨oneForm_readTu64 type, oneForm_readTu32 type, fun value => ?_⟩
    exact ⟨toNat_readTu32 type value, fun _ => widen_readTu32_eq_ok_iff⟩

def largest : MultiPart := ⟨⟨List.replicate 32 9, rfl⟩, ⟨0xffffffffffffffff⟩⟩

theorem one_form_each_largest : After (some 4) MultiPart.recordType ∧
    ∃ next, (Writing.Entry.multiPart largest).write ⟨[4, 1, 40], some 4⟩ = .ok next ∧
      next.bytes = [4, 1, 40, 8, 40] ++ List.replicate 32 9 ++ List.replicate 8 255 ∧
      ∀ value, MultiPart.decode value = .ok largest ↔
        value = List.replicate 32 9 ++ List.replicate 8 255 := by
  have hafter : After (some 4) MultiPart.recordType := by simp [After, MultiPart.recordType]
  obtain ⟨_, hform, happended⟩ := one_form_each
  obtain ⟨next, hwrite, hread⟩ := happended ⟨[4, 1, 40], some 4⟩ largest hafter
  have hencode : largest.encode = List.replicate 32 9 ++ List.replicate 8 255 := rfl
  refine ⟨hafter, next, hwrite, ?_, fun value => ?_⟩
  · exact (hread _).1 ((hform.read_iff _ largest).2 hencode.symm)
  · rw [hform.read_iff, hencode]

example : readTu32 4 [0, 0, 0, 0, 1] = .error (.invalidLength 4 5) := by decide

end Lightpay.Onion
