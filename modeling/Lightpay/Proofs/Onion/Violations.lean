import Lightpay.Proofs.Onion.PayloadGrammar
import Lightpay.Proofs.Tlv.Ending

/-! What a reported violation says about the records of a payload. The verdict is about the records
before the first one that has to be understood and is not. Behind it no known type is missed, unless
its type is zero, which is below them all. -/

namespace Lightpay.Onion

open Tlv

/-- What the report says is so: of the type it names, no record, a record that should be absent, or
a record of an even type that is not known; and the hop is the final one exactly if no record names
a channel for it. -/
structure Violation.Describes (violation : Violation) (records : List Record) : Prop where
  omitted : violation.kind = .omitted → ∀ value, ⟨violation.type, value⟩ ∉ records
  included : violation.kind = .included → ∃ value, ⟨violation.type, value⟩ ∈ records
  required : violation.kind = .required → violation.type ∉ Payload.knownTypes ∧
    violation.type % 2 = 0 ∧ ∃ value, ⟨violation.type, value⟩ ∈ records
  finalHop : violation.finalHop = true ↔
    ¬ ∃ value, ⟨6, value⟩ ∈ records ∧ ∃ byte ∈ value, byte ≠ 0

namespace Payload

variable {types : List UInt64} {next : ShortChannelId} {violation : Violation}
  {records before : List Record} {record : Record} {bytes : Bytes}

theorem check_eq_error (h : check types next = .error violation) :
    violation.type ∈ knownTypes ∧ violation.finalHop = decide next.IsExit ∧
      (violation.kind = .omitted ∧ violation.type ∉ types ∨
        violation.kind = .included ∧ violation.type ∈ types) := by
  rw [check] at h
  split at h
  · rename_i hamount
    cases h
    exact ⟨by simp [knownTypes], rfl, .inl ⟨rfl, hamount⟩⟩
  split at h
  · rename_i htimelock
    cases h
    exact ⟨by simp [knownTypes], rfl, .inl ⟨rfl, htimelock⟩⟩
  split at h
  · rename_i hnext
    cases h
    exact ⟨by simp [knownTypes], rfl, .inr ⟨rfl, hnext.2⟩⟩
  split at h
  · rename_i hmultiPart
    cases h
    exact ⟨by simp [knownTypes], rfl, .inr ⟨rfl, hmultiPart.2⟩⟩
  · cases h

theorem decode_eq_invalid_iff {stream : Stream} {result : Except Tlv.Error Unit}
    (hread : Stream.decodePartial knownTypes bytes = (stream, result)) :
    decode bytes = .error (.invalid violation) ↔ ∃ next, nextHop stream = .ok next ∧
      checkResult stream next result = .error (.invalid violation) := by
  simp only [decode, hread, bind_eq_error_iff, mapError_eq_error_iff, mapError_eq_ok_iff]
  simp

theorem checkResult_ok_eq_invalid_iff {stream : Stream} :
    checkResult stream next (.ok ()) = .error (.invalid violation) ↔
      check stream.types next = .error violation := by
  rw [checkResult, mapError_eq_error_iff]
  simp

theorem checkResult_required_eq_invalid_iff {stream : Stream} {type : UInt64} :
    checkResult stream next (.error (.unknownRequired type)) = .error (.invalid violation) ↔
      check stream.types next = .error violation ∨
        check stream.types next = .ok () ∧ violation = ⟨type, .required, next.IsExit⟩ := by
  simp only [checkResult, bind_eq_error_iff, mapError_eq_error_iff, mapError_eq_ok_iff]
  simp [throw, throwThe, MonadExceptOf.throw, Unique.exists_iff, eq_comm]

/-- Both have the same values of the known types. -/
def SameKnown (before records : List Record) : Prop :=
  ∀ type ∈ knownTypes, ∀ value, ⟨type, value⟩ ∈ before ↔ ⟨type, value⟩ ∈ records

theorem final_iff (hordered : before.Pairwise (·.type < ·.type))
    (hsame : SameKnown before records)
    (hnext : nextHop ⟨Stream.keep knownTypes before⟩ = .ok next) :
    decide next.IsExit = true ↔ ¬ ∃ value, ⟨6, value⟩ ∈ records ∧ ∃ byte ∈ value, byte ≠ 0 := by
  obtain ⟨hpresent, hexit⟩ := (nextHop_keep_eq_ok_iff hordered).1 hnext
  simp only [← hsame 6 (by decide), decide_eq_true_iff]
  by_cases hnamed : ∃ value, (⟨6, value⟩ : Record) ∈ before
  · obtain ⟨value, hmem⟩ := hnamed
    obtain ⟨_, packed, hpacked, rfl⟩ := hpresent value hmem
    simp only [Stream.mem_iff_eq_of_mem hordered hmem, exists_eq_left, ← unpack_ne_exit_iff hpacked]
    exact not_not.symm
  · have habsent := not_exists.1 hnamed
    simp [habsent, ShortChannelId.IsExit, hexit habsent]

theorem describes_of_check (hordered : before.Pairwise (·.type < ·.type))
    (hsame : SameKnown before records)
    (hnext : nextHop ⟨Stream.keep knownTypes before⟩ = .ok next)
    (hcheck : check (Stream.types ⟨Stream.keep knownTypes before⟩) next = .error violation) :
    violation.Describes records := by
  obtain ⟨hknown, hfinal, hkind⟩ := check_eq_error hcheck
  rw [Stream.mem_types_keep_iff hknown] at hkind
  simp only [hsame violation.type hknown] at hkind
  have hfinalHop := hfinal ▸ final_iff hordered hsame hnext
  rcases hkind with ⟨hkind, habsent⟩ | ⟨hkind, hpresent⟩
  · exact ⟨fun _ => not_exists.1 habsent, by simp [hkind], by simp [hkind], hfinalHop⟩
  · exact ⟨by simp [hkind], fun _ => hpresent, by simp [hkind], hfinalHop⟩

theorem sameKnown_append (hordered : (before ++ record :: records).Pairwise (·.type < ·.type))
    (hunknown : record.type ∉ knownTypes) (heven : record.type % 2 = 0)
    (hzero : record.type ≠ 0) : SameKnown before (before ++ record :: records) := by
  have hlarge : 8 < record.type := by
    simp only [knownTypes, amountType, timelockType, nextHopType, MultiPart.recordType] at hunknown
    grind
  have habove : ∀ other ∈ record :: records, 8 < other.type := by
    obtain ⟨_, hbehind, _⟩ := List.pairwise_append.1 hordered
    refine List.forall_mem_cons.2 ⟨hlarge, fun other hmem => ?_⟩
    exact UInt64.lt_trans hlarge (List.rel_of_pairwise_cons hbehind hmem)
  intro type hknown value
  rw [List.mem_append, or_iff_left]
  intro hmem
  have hsmall : type ≤ 8 := by
    rcases by simpa [knownTypes] using hknown with rfl | rfl | rfl | rfl <;> decide
  exact absurd (habove _ hmem) (UInt64.not_lt.2 hsmall)

theorem check_of_understood (hordered : records.Pairwise (·.type < ·.type))
    (hfits : ∀ record ∈ records, record.Fits)
    (hunderstood : ∀ record ∈ records, record.type ∈ knownTypes ∨ record.type % 2 ≠ 0)
    (h : decode (records.flatMap Record.encode) = .error (.invalid violation)) :
    ∃ next, nextHop ⟨Stream.keep knownTypes records⟩ = .ok next ∧
      check (Stream.types ⟨Stream.keep knownTypes records⟩) next = .error violation := by
  have hreadable : Stream.Readable knownTypes none records :=
    ⟨hordered, fun _ _ => nofun, hfits, hunderstood⟩
  have hread := Stream.decodePartial_eq_ok_iff.2 ⟨records, hreadable, rfl, rfl⟩
  simpa only [checkResult_ok_eq_invalid_iff] using (decode_eq_invalid_iff hread).1 h

theorem check_of_required (hordered : (before ++ record :: records).Pairwise (·.type < ·.type))
    (hfits : ∀ other ∈ before ++ record :: records, other.Fits)
    (hunderstood : ∀ other ∈ before, other.type ∈ knownTypes ∨ other.type % 2 ≠ 0)
    (hunknown : record.type ∉ knownTypes) (heven : record.type % 2 = 0)
    (h : decode ((before ++ record :: records).flatMap Record.encode) =
      .error (.invalid violation)) :
    ∃ next, nextHop ⟨Stream.keep knownTypes before⟩ = .ok next ∧
      (check (Stream.types ⟨Stream.keep knownTypes before⟩) next = .error violation ∨
        check (Stream.types ⟨Stream.keep knownTypes before⟩) next = .ok () ∧
          violation = ⟨record.type, .required, next.IsExit⟩) := by
  have hread := Stream.decodePartial_of_required hordered hfits hunderstood hunknown heven
  simpa only [checkResult_required_eq_invalid_iff] using (decode_eq_invalid_iff hread).1 h

theorem zero_not_understood : ¬ ((0 : UInt64) ∈ knownTypes ∨ (0 : UInt64) % 2 ≠ 0) := by decide

/-- No type is below zero, so a record of type zero is the first and nothing is read before it. -/
theorem before_eq_nil {value : Bytes} (hbelow : ∀ other ∈ before, ∀ later ∈ records,
      other.type < later.type)
    (hunderstood : ∀ other ∈ before, other.type ∈ knownTypes ∨ other.type % 2 ≠ 0)
    (hmem : ⟨0, value⟩ ∈ before ++ records) : before = [] := by
  refine List.eq_nil_iff_forall_not_mem.2 fun other hother => ?_
  rcases List.mem_append.1 hmem with hmem | hmem
  · exact zero_not_understood (hunderstood _ hmem)
  · exact UInt64.not_lt_zero (hbelow other hother _ hmem)

/-- A reported violation describes the payload, unless its first record is of type zero. Then
nothing was read when the verdict fell, and the amount is what is missed. -/
theorem violation_describes (hspells : Stream.Spells records bytes)
    (hordered : records.Pairwise (·.type < ·.type))
    (h : decode bytes = .error (.invalid violation)) :
    ((∀ value, ⟨0, value⟩ ∉ records) → violation.Describes records) ∧
      ((∃ value, ⟨0, value⟩ ∈ records) → violation = ⟨2, .omitted, true⟩) := by
  obtain ⟨hfits, rfl⟩ := Stream.spells_iff.1 hspells
  rcases Stream.understood_cases knownTypes records with
    hunderstood | ⟨before, record, after, rfl, hunderstood, hunknown, heven⟩
  · obtain ⟨next, hnext, hcheck⟩ := check_of_understood hordered hfits hunderstood h
    refine ⟨fun _ => describes_of_check hordered (fun _ _ _ => Iff.rfl) hnext hcheck, ?_⟩
    rintro ⟨value, hmem⟩
    exact absurd (hunderstood _ hmem) zero_not_understood
  · obtain ⟨hbefore, hbehind, hbelow⟩ := List.pairwise_append.1 hordered
    obtain ⟨next, hnext, hverdict⟩ :=
      check_of_required hordered hfits hunderstood hunknown heven h
    constructor
    · intro hnone
      have hzero : record.type ≠ 0 := fun hzero => hnone record.value (by simp [← hzero])
      have hsame := sameKnown_append hordered hunknown heven hzero
      rcases hverdict with hcheck | ⟨_, rfl⟩
      · exact describes_of_check hbefore hsame hnext hcheck
      · exact ⟨nofun, nofun, fun _ => ⟨hunknown, heven, record.value, by simp⟩,
          final_iff hbefore hsame hnext⟩
    · rintro ⟨value, hmem⟩
      obtain rfl := before_eq_nil hbelow hunderstood hmem
      cases hnext
      have homitted : check (Stream.types ⟨Stream.keep knownTypes []⟩) .exit =
          .error ⟨2, .omitted, true⟩ := by decide
      rcases hverdict with hcheck | ⟨hcheck, _⟩
      · exact Except.error.inj (hcheck.symm.trans homitted)
      · cases hcheck.symm.trans homitted

theorem violation_describes_timelock :
    decode [2, 1, 7, 100, 0] = .error (.invalid ⟨4, .omitted, true⟩) ∧
      Violation.Describes ⟨4, .omitted, true⟩ [⟨2, [7]⟩, ⟨100, []⟩] := by
  have h : decode [2, 1, 7, 100, 0] = .error (.invalid ⟨4, .omitted, true⟩) := by cbv
  have hspells : Stream.Spells [⟨2, [7]⟩, ⟨100, []⟩] [2, 1, 7, 100, 0] :=
    Stream.spells_iff.2 ⟨by simp [Record.Fits, UInt64.size], by cbv⟩
  exact ⟨h, (violation_describes hspells (by decide) h).1 (by simp)⟩

def hidden : List Record := [⟨0, []⟩, ⟨2, [1]⟩, ⟨4, [144]⟩, ⟨6, [0, 0, 1, 0, 0, 2, 0, 3]⟩]

/-- The amount is there, and the hop is not the final one. -/
theorem amount_hidden :
    Stream.Spells hidden [0, 0, 2, 1, 1, 4, 1, 144, 6, 8, 0, 0, 1, 0, 0, 2, 0, 3] ∧
      hidden.Pairwise (·.type < ·.type) ∧
      decode [0, 0, 2, 1, 1, 4, 1, 144, 6, 8, 0, 0, 1, 0, 0, 2, 0, 3] =
        .error (.invalid ⟨2, .omitted, true⟩) ∧
      ¬ Violation.Describes ⟨2, .omitted, true⟩ hidden := by
  refine ⟨Stream.spells_iff.2 ⟨by simp [hidden, Record.Fits, UInt64.size], by cbv⟩, by decide,
    by cbv, fun h => ?_⟩
  exact h.omitted rfl [1] (by simp [hidden])

end Payload

end Lightpay.Onion
