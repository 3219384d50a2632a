import Lightpay.Proofs.Onion.RoutePayloads

/-! Hop payloads are canonical. A payload that was decoded is written as the same bytes, without
the records that were skipped, so what the known records say is said by one byte string only. -/

namespace Lightpay.Onion.Payload

open Tlv

/-- The type is odd and not known. -/
def Skipped (record : Record) : Prop := record.type ∉ knownTypes ∧ record.type % 2 ≠ 0

instance (record : Record) : Decidable (Skipped record) := inferInstanceAs (Decidable (_ ∧ _))

/-- The hop has the values of the payload. -/
structure CarriedBy (payload : Payload) (hop : Hop) : Prop where
  amount : hop.amount = payload.forward.amount
  timelock : hop.timelock = payload.forward.timelock
  multiPart : hop.multiPart = payload.multiPart

variable {records : List Record} {payload : Payload} {hop : Hop} {value bytes : Bytes}

theorem amount_mem_iff (hgrammar : Grammar records) (htells : Tells records payload) :
    ⟨2, value⟩ ∈ records ↔ value = truncated payload.forward.amount.msat := by
  obtain ⟨amount, hmem, hwidth⟩ := hgrammar.amount
  rw [Stream.mem_iff_eq_of_mem hgrammar.ordered hmem,
    (eq_truncated_iff hwidth).2 (htells.amount amount hmem).symm]

theorem timelock_mem_iff (hgrammar : Grammar records) (htells : Tells records payload) :
    ⟨4, value⟩ ∈ records ↔ value = truncated payload.forward.timelock.toUInt64 := by
  obtain ⟨timelock, hmem, hwidth⟩ := hgrammar.timelock
  have hvalue := (htells.timelock timelock hmem).symm
  rw [← UInt32.toNat_toUInt64] at hvalue
  rw [Stream.mem_iff_eq_of_mem hgrammar.ordered hmem, (eq_truncated_iff hwidth).2 hvalue]

theorem multiPart_mem_iff (hgrammar : Grammar records) (htells : Tells records payload) :
    ⟨8, value⟩ ∈ records ↔ ∃ part, payload.multiPart = some part ∧ value = part.encode := by
  by_cases hpresent : ∃ value, (⟨8, value⟩ : Record) ∈ records
  · obtain ⟨told, hmem⟩ := hpresent
    obtain ⟨part, hpart, hspells⟩ := htells.multiPart told hmem
    obtain rfl := MultiPart.spells_iff.1 hspells
    simp [Stream.mem_iff_eq_of_mem hgrammar.ordered hmem, hpart]
  · have habsent := not_exists.1 hpresent
    simp [habsent, htells.single habsent]

theorem exists_onward (hgrammar : Grammar records) (htells : Tells records payload) :
    ∃ onward : Option UInt64,
      (∀ value, ⟨6, value⟩ ∈ records ↔ ∃ packed, onward = some packed ∧ value = fixed packed) ∧
      ∀ hop : Hop, hop.payload payload.forward.nextHop =
        .ok ((hop.records onward).flatMap Record.encode) := by
  rcases hgrammar.position with ⟨⟨next, hmem, hlength, hnonzero⟩, _⟩ | ⟨habsent, _⟩
  · obtain ⟨packed, hpacked, hnext⟩ := htells.nextHop next hmem
    obtain rfl := (eq_fixed_iff hlength).2 hpacked.symm
    have hchannel := (unpack_ne_exit_iff hpacked).2 hnonzero
    refine ⟨some packed, fun value => ?_, fun hop => ?_⟩
    · simp [Stream.mem_iff_eq_of_mem hgrammar.ordered hmem]
    · rw [hnext]
      exact Hop.payload_of_pack? hchannel (ShortChannelId.pack?_unpack packed)
  · refine ⟨none, fun value => ?_, fun hop => ?_⟩
    · simp [habsent]
    · rw [htells.exit habsent]
      exact hop.payload_exit

theorem keep_eq_records {onward : Option UInt64} (hgrammar : Grammar records)
    (htells : Tells records payload) (hcarried : payload.CarriedBy hop)
    (honward : ∀ value,
      ⟨6, value⟩ ∈ records ↔ ∃ packed, onward = some packed ∧ value = fixed packed) :
    Stream.keep knownTypes records = hop.records onward := by
  refine Stream.eq_of_mem_iff (hgrammar.ordered.filter _) (Hop.records_ordered hop onward) ?_
  rintro ⟨type, value⟩
  rw [Stream.keep, List.mem_filter, decide_eq_true_iff]
  by_cases hknown : type ∈ knownTypes
  · rw [and_iff_left hknown]
    -- One type after the other, a record is the one that the hop writes for it.
    rcases by simpa [knownTypes] using hknown with rfl | rfl | rfl | rfl
    · rw [amountType, amount_mem_iff hgrammar htells, Hop.amount_mem_records, hcarried.amount]
    · rw [timelockType, timelock_mem_iff hgrammar htells, Hop.timelock_mem_records,
        hcarried.timelock]
    · rw [nextHopType, honward, Hop.nextHop_mem_records]
    · rw [MultiPart.recordType, multiPart_mem_iff hgrammar htells, Hop.multiPart_mem_records,
        hcarried.multiPart]
  · exact iff_of_false (fun h => hknown h.2) fun h =>
      hknown (Hop.records_even_known hop onward _ h)

theorem filter_not_skipped (hgrammar : Grammar records) :
    records.filter (¬ Skipped ·) = Stream.keep knownTypes records := by
  refine List.filter_congr fun record hmem => ?_
  have heven := hgrammar.even_known record hmem
  rw [decide_eq_decide, Skipped, not_and, not_not]
  constructor
  · intro hunskipped
    by_contra hunknown
    exact hunknown (heven (hunskipped hunknown))
  · intro hknown hunknown
    exact absurd hknown hunknown

theorem payload_of_decode (h : decode bytes = .ok payload) (hspells : Stream.Spells records bytes)
    (hcarried : payload.CarriedBy hop) :
    hop.payload payload.forward.nextHop =
      .ok ((records.filter (¬ Skipped ·)).flatMap Record.encode) := by
  obtain ⟨told, htold, hgrammar, htells⟩ := grammar_of_decode h
  obtain rfl := Stream.spells_unique hspells htold
  obtain ⟨onward, honward, hpayload⟩ := exists_onward hgrammar htells
  rw [hpayload, filter_not_skipped hgrammar, keep_eq_records hgrammar htells hcarried honward]

theorem payload_of_not_skipped (h : decode bytes = .ok payload)
    (hspells : Stream.Spells records bytes) (hcarried : payload.CarriedBy hop)
    (hnone : ∀ record ∈ records, ¬ Skipped record) :
    hop.payload payload.forward.nextHop = .ok bytes := by
  rw [payload_of_decode h hspells hcarried, List.filter_eq_self.2 (by simpa using hnone),
    ← (Stream.spells_iff.1 hspells).2]

theorem exists_carriedBy (payload : Payload) : ∃ hop, payload.CarriedBy hop :=
  ⟨⟨⟨1, false, by decide +kernel⟩, .exit, _, _, _⟩, rfl, rfl, rfl⟩

/-- What was decoded is written back: a hop with the values of the payload gets the bytes without
the records that were skipped. Where none was skipped, one byte string says what the payload
does. -/
theorem written_back (h : decode bytes = .ok payload) :
    ∃ records, Stream.Spells records bytes ∧
      (∀ hop, payload.CarriedBy hop → ∃ written,
        hop.payload payload.forward.nextHop = .ok written ∧
          Stream.Spells (records.filter (¬ Skipped ·)) written ∧
          ((∀ record ∈ records, ¬ Skipped record) → written = bytes)) ∧
      ∀ other others, decode other = .ok payload → Stream.Spells others other →
        (∀ record ∈ records, ¬ Skipped record) → (∀ record ∈ others, ¬ Skipped record) →
        other = bytes := by
  obtain ⟨records, hspells, _⟩ := grammar_of_decode h
  obtain ⟨hfits, _⟩ := Stream.spells_iff.1 hspells
  refine ⟨records, hspells, fun hop hcarried => ?_, ?_⟩
  · have hwritten := payload_of_decode h hspells hcarried
    refine ⟨_, hwritten, Stream.spells_iff.2 ⟨fun record hmem => ?_, rfl⟩, fun hnone => ?_⟩
    · exact hfits record (List.mem_of_mem_filter hmem)
    · exact Except.ok.inj (hwritten.symm.trans (payload_of_not_skipped h hspells hcarried hnone))
  · intro other others hother hspellsOther hnone hnoneOther
    obtain ⟨hop, hcarried⟩ := payload.exists_carriedBy
    have hbytes := payload_of_not_skipped h hspells hcarried hnone
    have hsame := payload_of_not_skipped hother hspellsOther hcarried hnoneOther
    exact Except.ok.inj (hsame.symm.trans hbytes)

theorem written_back_skipped :
    decode [2, 1, 7, 3, 1, 9, 4, 0] = .ok ⟨⟨.bitcoin, .exit, ⟨7⟩, 0⟩, none⟩ ∧
      ∀ hop, CarriedBy ⟨⟨.bitcoin, .exit, ⟨7⟩, 0⟩, none⟩ hop →
        hop.payload .exit = .ok [2, 1, 7, 4, 0] := by
  have h : decode [2, 1, 7, 3, 1, 9, 4, 0] = .ok ⟨⟨.bitcoin, .exit, ⟨7⟩, 0⟩, none⟩ := by cbv
  refine ⟨h, fun hop hcarried => ?_⟩
  obtain ⟨records, hspells, hwritten, _⟩ := written_back h
  have hrecords : Stream.Spells [⟨2, [7]⟩, ⟨3, [9]⟩, ⟨4, []⟩] [2, 1, 7, 3, 1, 9, 4, 0] :=
    Stream.spells_iff.2 ⟨by simp [Record.Fits, UInt64.size], by cbv⟩
  obtain rfl := Stream.spells_unique hspells hrecords
  obtain ⟨written, hpayload, hkept, _⟩ := hwritten hop hcarried
  have hbytes : written = [2, 1, 7, 4, 0] := (Stream.spells_iff.1 hkept).2.trans (by cbv)
  exact hbytes ▸ hpayload

end Lightpay.Onion.Payload
