import Lightpay.Onion.Payload
import Lightpay.Proofs.Onion.ChannelId
import Lightpay.Proofs.Tlv.Integer
import Lightpay.Proofs.Tlv.Stream

/-! The grammar of hop payloads. Decoding accepts the byte strings of the grammar and no
others, and the payload says what the records do. -/

namespace Lightpay.Onion

open Tlv

/-- The value is the payment address, and the total without zero bytes in front of it. -/
def MultiPart.Spells (part : MultiPart) (value : Bytes) : Prop :=
  ∃ total, value = part.address.bytes ++ total ∧ TruncatedTo 8 total ∧
    Bytes.toNat total = part.total.msat.toNat

theorem ofBytes?_eq_some_iff {bytes : Bytes} {value : Bytes32} :
    Bytes32.ofBytes? bytes = some value ↔ bytes = value.bytes := by
  rw [Bytes32.ofBytes?]
  constructor
  · intro h
    split at h
    · cases h
      rfl
    · cases h
  · rintro rfl
    rw [dif_pos value.length_bytes]

theorem ofBytes?_eq_none_iff {bytes : Bytes} :
    Bytes32.ofBytes? bytes = none ↔ bytes.length ≠ 32 := by
  rw [Bytes32.ofBytes?]
  split <;> simp [*]

theorem MultiPart.decode_eq_ok_iff {part : MultiPart} {value : Bytes} :
    decode value = .ok part ↔ part.Spells value := by
  rw [decode]
  constructor
  · intro h
    split at h
    · cases h
    rename_i address haddress
    split at h
    · cases h
    obtain ⟨total, htotal, h⟩ := bind_eq_ok_iff.1 h
    cases h
    obtain ⟨hwidth, hvalue⟩ := readTu64_eq_ok_iff.1 htotal
    refine ⟨value.drop 32, ?_, hwidth, hvalue⟩
    rw [← ofBytes?_eq_some_iff.1 haddress, List.take_append_drop]
  · rintro ⟨total, rfl, hwidth, hvalue⟩
    have haddress := part.address.length_bytes
    have hshort : ¬ 40 < (part.address.bytes ++ total).length := by
      rw [List.length_append]
      have := hwidth.1
      omega
    rw [List.take_left' haddress, ofBytes?_eq_some_iff.2 rfl, List.drop_left' haddress,
      readTu64_eq_ok_iff.2 ⟨hwidth, hvalue⟩]
    dsimp only
    rw [if_neg hshort]
    rfl

theorem MultiPart.spells_encode (part : MultiPart) : part.Spells part.encode :=
  ⟨truncated part.total.msat, rfl, truncatedTo_truncated part.total.msat.toNat_lt,
    toNat_truncated part.total.msat⟩

theorem MultiPart.length_encode_le (part : MultiPart) : part.encode.length ≤ 40 := by
  rw [encode, List.length_append, part.address.length_bytes]
  exact Nat.add_le_add_left (length_truncated_le part.total.msat) 32

theorem MultiPart.spells_iff {part : MultiPart} {value : Bytes} :
    part.Spells value ↔ value = part.encode := by
  constructor
  · rintro ⟨total, rfl, hwidth, htotal⟩
    rw [encode, (eq_truncated_iff hwidth).2 htotal]
  · rintro rfl
    exact part.spells_encode

theorem MultiPart.exists_spells_iff {value : Bytes} : (∃ part : MultiPart, part.Spells value) ↔
    ∃ address total, value = address ++ total ∧ address.length = 32 ∧ TruncatedTo 8 total := by
  constructor
  · rintro ⟨part, total, hvalue, hwidth, _⟩
    exact ⟨_, total, hvalue, part.address.length_bytes, hwidth⟩
  · rintro ⟨address, total, hvalue, hlength, hwidth⟩
    have hfits := toNat_lt_of_truncatedTo hwidth
    refine ⟨⟨⟨address, hlength⟩, ⟨UInt64.ofNat (Bytes.toNat total)⟩⟩, total, hvalue, hwidth, ?_⟩
    exact (UInt64.toNat_ofNat_of_lt' hfits).symm

namespace Payload

/-- The records that make up a hop payload. A hop before the last has a next hop, and the last may
have a multi-part record. -/
structure Grammar (records : List Record) : Prop where
  ordered : records.Pairwise (·.type < ·.type)
  even_known : ∀ record ∈ records, record.type % 2 = 0 → record.type ∈ [2, 4, 6, 8]
  amount : ∃ value, ⟨2, value⟩ ∈ records ∧ TruncatedTo 8 value
  timelock : ∃ value, ⟨4, value⟩ ∈ records ∧ TruncatedTo 4 value
  position :
    ((∃ value, ⟨6, value⟩ ∈ records ∧ value.length = 8 ∧ ∃ byte ∈ value, byte ≠ 0) ∧
      ∀ value, ⟨8, value⟩ ∉ records) ∨
    (∀ value, ⟨6, value⟩ ∉ records) ∧ ∀ value, ⟨8, value⟩ ∈ records →
      ∃ address total, value = address ++ total ∧ address.length = 32 ∧ TruncatedTo 8 total

/-- The payload says what the records do. -/
structure Tells (records : List Record) (payload : Payload) : Prop where
  network : payload.forward.network = .bitcoin
  amount : ∀ value, ⟨2, value⟩ ∈ records →
    payload.forward.amount.msat.toNat = Bytes.toNat value
  timelock : ∀ value, ⟨4, value⟩ ∈ records → payload.forward.timelock.toNat = Bytes.toNat value
  nextHop : ∀ value, ⟨6, value⟩ ∈ records →
    ∃ packed : UInt64, packed.toNat = Bytes.toNat value ∧ payload.forward.nextHop = .unpack packed
  exit : (∀ value, ⟨6, value⟩ ∉ records) → payload.forward.nextHop = .exit
  multiPart : ∀ value, ⟨8, value⟩ ∈ records →
    ∃ part, payload.multiPart = some part ∧ part.Spells value
  single : (∀ value, ⟨8, value⟩ ∉ records) → payload.multiPart = none

theorem checkResult_eq_ok_iff {stream : Tlv.Stream} {next : ShortChannelId}
    {result : Except Tlv.Error Unit} :
    checkResult stream next result = .ok () ↔
      result = .ok () ∧ check stream.types next = .ok () := by
  cases result with
  | ok => simp [checkResult, mapError_eq_ok_iff]
  | error e =>
    refine iff_of_false ?_ nofun
    cases e <;> simp [checkResult, throw, throwThe, MonadExceptOf.throw, bind_eq_ok_iff]

theorem decode_eq_ok_iff {bytes : Bytes} {payload : Payload} :
    decode bytes = .ok payload ↔ ∃ stream next,
      Stream.decodePartial knownTypes bytes = (stream, .ok ()) ∧ nextHop stream = .ok next ∧
        check stream.types next = .ok () ∧ ofStream stream next = .ok payload := by
  rw [decode]
  rcases Stream.decodePartial knownTypes bytes with ⟨stream, result⟩
  constructor
  · intro h
    obtain ⟨next, hnext, h⟩ := bind_eq_ok_iff.1 h
    obtain ⟨_, hchecked, hvalues⟩ := bind_eq_ok_iff.1 h
    obtain ⟨rfl, hcheck⟩ := checkResult_eq_ok_iff.1 hchecked
    exact ⟨stream, next, rfl, mapError_eq_ok_iff.1 hnext, hcheck, mapError_eq_ok_iff.1 hvalues⟩
  · rintro ⟨_, next, ⟨⟩, hnext, hcheck, hvalues⟩
    refine bind_eq_ok_iff.2 ⟨next, mapError_eq_ok_iff.2 hnext, ?_⟩
    exact bind_eq_ok_iff.2
      ⟨(), checkResult_eq_ok_iff.2 ⟨rfl, hcheck⟩, mapError_eq_ok_iff.2 hvalues⟩

theorem decode_of_check_eq_error {bytes : Bytes} {stream : Tlv.Stream} {next : ShortChannelId}
    {violation : Violation} (hread : Stream.decodePartial knownTypes bytes = (stream, .ok ()))
    (hnext : nextHop stream = .ok next) (hcheck : check stream.types next = .error violation) :
    decode bytes = .error (.invalid violation) := by
  rw [decode, hread]
  refine bind_eq_error_iff.2 (.inr ⟨next, mapError_eq_ok_iff.2 hnext, ?_⟩)
  refine bind_eq_error_iff.2 (.inl ?_)
  rw [checkResult, hcheck]
  rfl

theorem check_eq_ok_iff {types : List UInt64} {next : ShortChannelId} :
    check types next = .ok () ↔ 2 ∈ types ∧ 4 ∈ types ∧
      (next = .exit → 6 ∉ types) ∧ (next ≠ .exit → 8 ∉ types) := by
  have hexit : decide next.IsExit = true ↔ next = .exit := decide_eq_true_iff
  simp only [check, hexit, amountType, timelockType, nextHopType, MultiPart.recordType]
  by_cases hamount : 2 ∈ types
  · by_cases htimelock : 4 ∈ types
    · by_cases hlast : next = .exit
      · by_cases hnext : 6 ∈ types <;> simp [hamount, htimelock, hlast, hnext]
      · by_cases hmultiPart : 8 ∈ types <;> simp [hamount, htimelock, hlast, hmultiPart]
    · simp [hamount, htimelock]
  · simp [hamount]

theorem ofStream_eq_ok_iff {stream : Tlv.Stream} {next : ShortChannelId} {payload : Payload} :
    ofStream stream next = .ok payload ↔
      payload.forward.network = .bitcoin ∧ payload.forward.nextHop = next ∧
      readTu64 amountType ((stream.get? amountType).getD []) = .ok payload.forward.amount.msat ∧
      readTu32 timelockType ((stream.get? timelockType).getD []) = .ok payload.forward.timelock ∧
      (∀ value, stream.get? MultiPart.recordType = some value →
        ∃ part, payload.multiPart = some part ∧ MultiPart.decode value = .ok part) ∧
      (stream.get? MultiPart.recordType = none → payload.multiPart = none) := by
  rw [ofStream]
  constructor
  · intro h
    obtain ⟨amount, hamount, h⟩ := bind_eq_ok_iff.1 h
    obtain ⟨timelock, htimelock, h⟩ := bind_eq_ok_iff.1 h
    cases hget : stream.get? MultiPart.recordType with
    | none =>
      rw [hget] at h
      cases h
      exact ⟨rfl, rfl, hamount, htimelock, nofun, fun _ => rfl⟩
    | some value =>
      rw [hget] at h
      obtain ⟨_, hmultiPart, h⟩ := bind_eq_ok_iff.1 h
      obtain ⟨part, hpart, rfl⟩ := map_eq_ok_iff.1 hmultiPart
      cases h
      refine ⟨rfl, rfl, hamount, htimelock, ?_, nofun⟩
      rintro _ ⟨⟩
      exact ⟨part, rfl, hpart⟩
  · rintro ⟨hnetwork, rfl, hamount, htimelock, hpresent, habsent⟩
    obtain ⟨⟨network, next, ⟨amount⟩, timelock⟩, multiPart⟩ := payload
    dsimp only at hnetwork hamount htimelock hpresent habsent
    refine bind_eq_ok_iff.2 ⟨amount, hamount, bind_eq_ok_iff.2 ⟨timelock, htimelock, ?_⟩⟩
    cases hget : stream.get? MultiPart.recordType with
    | none =>
      rw [hnetwork, habsent hget]
      rfl
    | some value =>
      obtain ⟨part, rfl, hdecode⟩ := hpresent value hget
      rw [hnetwork]
      exact bind_eq_ok_iff.2 ⟨some part, map_eq_ok_iff.2 ⟨part, hdecode, rfl⟩, rfl⟩

variable {records : List Record} {payload : Payload} {next : ShortChannelId}

theorem unpack_ne_exit_iff {packed : UInt64} {value : Bytes}
    (hpacked : packed.toNat = Bytes.toNat value) :
    ShortChannelId.unpack packed ≠ .exit ↔ ∃ byte ∈ value, byte ≠ 0 := by
  have hzero : packed = 0 ↔ Bytes.toNat value = 0 := by
    rw [← UInt64.toNat_inj, hpacked]
    rfl
  rw [Ne, ShortChannelId.unpack_eq_exit_iff, hzero, Bytes.toNat_eq_zero_iff]
  simp

theorem nextHop_keep_eq_ok_iff (hordered : records.Pairwise (·.type < ·.type)) :
    nextHop ⟨Stream.keep knownTypes records⟩ = .ok next ↔
      (∀ value, ⟨6, value⟩ ∈ records → value.length = 8 ∧
        ∃ packed : UInt64, packed.toNat = Bytes.toNat value ∧ next = .unpack packed) ∧
      ((∀ value, ⟨6, value⟩ ∉ records) → next = .exit) := by
  have hknown : nextHopType ∈ knownTypes := by decide
  rw [nextHop]
  cases hget : Stream.get? ⟨Stream.keep knownTypes records⟩ nextHopType with
  | none =>
    have habsent := (Stream.get?_keep_eq_none_iff hknown).1 hget
    constructor
    · rintro ⟨⟩
      exact ⟨fun value hvalue => absurd hvalue (habsent value), fun _ => rfl⟩
    · rintro ⟨_, hexit⟩
      rw [hexit habsent]
  | some value =>
    have hvalue := (Stream.get?_keep_eq_some_iff hknown hordered).1 hget
    constructor
    · intro h
      obtain ⟨packed, hpacked, rfl⟩ := map_eq_ok_iff.1 h
      obtain ⟨hlength, htoNat⟩ := readU64_eq_ok_iff.1 hpacked
      exact ⟨Stream.holds_of_mem hordered hvalue ⟨hlength, packed, htoNat.symm, rfl⟩,
        fun habsent => absurd hvalue (habsent value)⟩
    · rintro ⟨hpresent, _⟩
      obtain ⟨hlength, packed, hpacked, rfl⟩ := hpresent value hvalue
      exact map_eq_ok_iff.2 ⟨packed, readU64_eq_ok_iff.2 ⟨hlength, hpacked.symm⟩, rfl⟩

theorem grammar_of_decoded (hordered : records.Pairwise (·.type < ·.type))
    (heven : ∀ record ∈ records, record.type % 2 = 0 → record.type ∈ [2, 4, 6, 8])
    (hnext : nextHop ⟨Stream.keep knownTypes records⟩ = .ok next)
    (hcheck : check (Stream.types ⟨Stream.keep knownTypes records⟩) next = .ok ())
    (hvalues : ofStream ⟨Stream.keep knownTypes records⟩ next = .ok payload) :
    Grammar records ∧ Tells records payload := by
  have hget : ∀ type ∈ knownTypes, ∀ value, ⟨type, value⟩ ∈ records →
      Stream.get? ⟨Stream.keep knownTypes records⟩ type = some value :=
    fun type hknown value => (Stream.get?_keep_eq_some_iff hknown hordered).2
  have habsent : ∀ type ∈ knownTypes, (∀ value, ⟨type, value⟩ ∉ records) →
      Stream.get? ⟨Stream.keep knownTypes records⟩ type = none :=
    fun type hknown => (Stream.get?_keep_eq_none_iff hknown).2
  obtain ⟨hpresent, hexit⟩ := (nextHop_keep_eq_ok_iff hordered).1 hnext
  obtain ⟨hamount, htimelock, hlast, hbefore⟩ := check_eq_ok_iff.1 hcheck
  obtain ⟨hnetwork, rfl, hreadAmount, hreadTimelock, hpart, hsingle⟩ :=
    ofStream_eq_ok_iff.1 hvalues
  rw [Stream.mem_types_keep_iff (by decide)] at hamount htimelock hlast hbefore
  obtain ⟨amount, hamount⟩ := hamount
  obtain ⟨timelock, htimelock⟩ := htimelock
  rw [hget amountType (by decide) amount hamount] at hreadAmount
  rw [hget timelockType (by decide) timelock htimelock] at hreadTimelock
  obtain ⟨hwidthAmount, hamountValue⟩ := readTu64_eq_ok_iff.1 hreadAmount
  obtain ⟨hwidthTimelock, htimelockValue⟩ := readTu32_eq_ok_iff.1 hreadTimelock
  have hspells : ∀ value, ⟨8, value⟩ ∈ records →
      ∃ part, payload.multiPart = some part ∧ part.Spells value := by
    intro value hvalue
    obtain ⟨part, hmultiPart, hdecode⟩ := hpart value (hget 8 (by decide) value hvalue)
    exact ⟨part, hmultiPart, MultiPart.decode_eq_ok_iff.1 hdecode⟩
  constructor
  · refine ⟨hordered, heven, ⟨amount, hamount, hwidthAmount⟩,
      ⟨timelock, htimelock, hwidthTimelock⟩, ?_⟩
    -- The check compares the unpacked channel with the exit, the grammar looks at the bytes.
    by_cases hforwards : ∃ value, (⟨6, value⟩ : Record) ∈ records
    · obtain ⟨value, hvalue⟩ := hforwards
      obtain ⟨hlength, packed, hpacked, hnextHop⟩ := hpresent value hvalue
      have hchannel : payload.forward.nextHop ≠ .exit := fun hexit => hlast hexit ⟨value, hvalue⟩
      refine .inl ⟨⟨value, hvalue, hlength, ?_⟩, not_exists.1 (hbefore hchannel)⟩
      rw [hnextHop, unpack_ne_exit_iff hpacked] at hchannel
      exact hchannel
    · refine .inr ⟨not_exists.1 hforwards, fun value hvalue => ?_⟩
      obtain ⟨part, _, hpart⟩ := hspells value hvalue
      exact MultiPart.exists_spells_iff.1 ⟨part, hpart⟩
  · exact ⟨hnetwork, Stream.holds_of_mem hordered hamount hamountValue.symm,
      Stream.holds_of_mem hordered htimelock htimelockValue.symm,
      fun value hvalue => (hpresent value hvalue).2, hexit, hspells,
      fun hnone => hsingle (habsent 8 (by decide) hnone)⟩

theorem decoded_of_grammar (hgrammar : Grammar records) (htells : Tells records payload) :
    nextHop ⟨Stream.keep knownTypes records⟩ = .ok payload.forward.nextHop ∧
      check (Stream.types ⟨Stream.keep knownTypes records⟩) payload.forward.nextHop = .ok () ∧
      ofStream ⟨Stream.keep knownTypes records⟩ payload.forward.nextHop = .ok payload := by
  have hordered := hgrammar.ordered
  have hget : ∀ type ∈ knownTypes, ∀ value,
      Stream.get? ⟨Stream.keep knownTypes records⟩ type = some value ↔ ⟨type, value⟩ ∈ records :=
    fun type hknown value => Stream.get?_keep_eq_some_iff hknown hordered
  obtain ⟨amount, hamount, hwidthAmount⟩ := hgrammar.amount
  obtain ⟨timelock, htimelock, hwidthTimelock⟩ := hgrammar.timelock
  have hposition := hgrammar.position
  refine ⟨?_, ?_, ?_⟩
  · refine (nextHop_keep_eq_ok_iff hordered).2
      ⟨fun value hvalue => ⟨?_, htells.nextHop value hvalue⟩, htells.exit⟩
    rcases hposition with ⟨⟨other, hother, hlength, _⟩, _⟩ | ⟨hnone, _⟩
    · exact Stream.holds_of_mem (P := (·.length = 8)) hordered hother hlength value hvalue
    · exact absurd hvalue (hnone value)
  · rw [check_eq_ok_iff, Stream.mem_types_keep_iff (by decide),
      Stream.mem_types_keep_iff (by decide), Stream.mem_types_keep_iff (by decide),
      Stream.mem_types_keep_iff (by decide)]
    refine ⟨⟨amount, hamount⟩, ⟨timelock, htimelock⟩, ?_, ?_⟩
    · rintro hexit ⟨value, hvalue⟩
      rcases hposition with ⟨⟨other, hother, _, hnonzero⟩, _⟩ | ⟨hnone, _⟩
      · obtain ⟨packed, hpacked, hnextHop⟩ := htells.nextHop other hother
        rw [← unpack_ne_exit_iff hpacked, ← hnextHop] at hnonzero
        exact hnonzero hexit
      · exact hnone value hvalue
    · intro hchannel
      rcases hposition with ⟨_, hnone⟩ | ⟨hnone, _⟩
      · exact not_exists.2 hnone
      · exact absurd (htells.exit hnone) hchannel
  · rw [ofStream_eq_ok_iff, (hget amountType (by decide) amount).2 hamount,
      (hget timelockType (by decide) timelock).2 htimelock]
    refine ⟨htells.network, rfl,
      readTu64_eq_ok_iff.2 ⟨hwidthAmount, (htells.amount amount hamount).symm⟩,
      readTu32_eq_ok_iff.2 ⟨hwidthTimelock, (htells.timelock timelock htimelock).symm⟩, ?_,
      fun hnone => htells.single ((Stream.get?_keep_eq_none_iff (by decide)).1 hnone)⟩
    intro value hvalue
    obtain ⟨part, hmultiPart, hspells⟩ :=
      htells.multiPart value ((hget MultiPart.recordType (by decide) value).1 hvalue)
    exact ⟨part, hmultiPart, MultiPart.decode_eq_ok_iff.2 hspells⟩

theorem exists_tells (hgrammar : Grammar records) : ∃ payload, Tells records payload := by
  have hordered := hgrammar.ordered
  obtain ⟨amount, hamount⟩ : ∃ amount : UInt64, ∀ value, ⟨2, value⟩ ∈ records →
      amount.toNat = Bytes.toNat value := by
    obtain ⟨value, hvalue, hwidth⟩ := hgrammar.amount
    have hfits := toNat_lt_of_truncatedTo hwidth
    exact ⟨_, Stream.holds_of_mem hordered hvalue (UInt64.toNat_ofNat_of_lt' hfits)⟩
  obtain ⟨timelock, htimelock⟩ : ∃ timelock : UInt32, ∀ value, ⟨4, value⟩ ∈ records →
      timelock.toNat = Bytes.toNat value := by
    obtain ⟨value, hvalue, hwidth⟩ := hgrammar.timelock
    have hfits := toNat_lt_of_truncatedTo hwidth
    exact ⟨_, Stream.holds_of_mem hordered hvalue (UInt32.toNat_ofNat_of_lt' hfits)⟩
  rcases hgrammar.position with ⟨⟨next, hnext, hlength, _⟩, hnone⟩ | ⟨hlast, hpart⟩
  · have hfits : Bytes.toNat next < UInt64.size := by
      have hlt := Bytes.toNat_lt next
      rwa [hlength] at hlt
    have hpacked := UInt64.toNat_ofNat_of_lt' hfits
    exact ⟨⟨⟨.bitcoin, .unpack _, ⟨amount⟩, timelock⟩, none⟩, rfl, hamount, htimelock,
      Stream.holds_of_mem hordered hnext ⟨_, hpacked, rfl⟩,
      fun habsent => absurd hnext (habsent next),
      fun value hvalue => absurd hvalue (hnone value), fun _ => rfl⟩
  by_cases hmultiPart : ∃ value, (⟨8, value⟩ : Record) ∈ records
  · obtain ⟨value, hvalue⟩ := hmultiPart
    obtain ⟨part, hspells⟩ := MultiPart.exists_spells_iff.2 (hpart value hvalue)
    exact ⟨⟨⟨.bitcoin, .exit, ⟨amount⟩, timelock⟩, some part⟩, rfl, hamount, htimelock,
      fun other hother => absurd hother (hlast other), fun _ => rfl,
      Stream.holds_of_mem hordered hvalue ⟨part, rfl, hspells⟩,
      fun habsent => absurd hvalue (habsent value)⟩
  · exact ⟨⟨⟨.bitcoin, .exit, ⟨amount⟩, timelock⟩, none⟩, rfl, hamount, htimelock,
      fun other hother => absurd hother (hlast other), fun _ => rfl,
      fun value hvalue => absurd ⟨value, hvalue⟩ hmultiPart, fun _ => rfl⟩

theorem readable_iff : Stream.Readable knownTypes none records ↔
    (records.Pairwise (·.type < ·.type) ∧
      ∀ record ∈ records, record.type % 2 = 0 → record.type ∈ [2, 4, 6, 8]) ∧
    ∀ record ∈ records, record.Fits := by
  constructor
  · intro h
    exact ⟨⟨h.ordered, fun record hmem heven =>
      (h.understood record hmem).resolve_right (not_not.2 heven)⟩, h.fits⟩
  · rintro ⟨⟨hordered, heven⟩, hfits⟩
    exact ⟨hordered, fun _ _ => nofun, hfits, fun record hmem =>
      Decidable.or_iff_not_imp_right.2 fun h => heven record hmem (not_not.1 h)⟩

theorem decode_of_tells (hfits : ∀ record ∈ records, record.Fits) (hgrammar : Grammar records)
    (htells : Tells records payload) : decode (records.flatMap Record.encode) = .ok payload := by
  have hreadable := readable_iff.2 ⟨⟨hgrammar.ordered, hgrammar.even_known⟩, hfits⟩
  exact decode_eq_ok_iff.2 ⟨_, _, Stream.decodePartial_eq_ok_iff.2 ⟨records, hreadable, rfl, rfl⟩,
    decoded_of_grammar hgrammar htells⟩

theorem grammar_of_decode {bytes : Bytes} (h : decode bytes = .ok payload) :
    ∃ records, Stream.Spells records bytes ∧ Grammar records ∧ Tells records payload := by
  obtain ⟨stream, next, hread, hnext, hcheck, hvalues⟩ := decode_eq_ok_iff.1 h
  obtain ⟨records, hreadable, hbytes, rfl⟩ := Stream.decodePartial_eq_ok_iff.1 hread
  obtain ⟨⟨hordered, heven⟩, hfits⟩ := readable_iff.1 hreadable
  exact ⟨records, Stream.spells_iff.2 ⟨hfits, hbytes⟩,
    grammar_of_decoded hordered heven hnext hcheck hvalues⟩

/-- A payload is decoded from the byte strings of the grammar that tell it, and every byte string
of the grammar tells one. -/
theorem decode_grammar (bytes : Bytes) :
    (∀ payload, decode bytes = .ok payload ↔
      ∃ records, Stream.Spells records bytes ∧ Grammar records ∧ Tells records payload) ∧
    ((∃ payload, decode bytes = .ok payload) ↔
      ∃ records, Stream.Spells records bytes ∧ Grammar records) := by
  have hdecode : ∀ payload, decode bytes = .ok payload ↔
      ∃ records, Stream.Spells records bytes ∧ Grammar records ∧ Tells records payload := by
    intro payload
    constructor
    · exact grammar_of_decode
    · rintro ⟨records, hspells, hgrammar, htells⟩
      obtain ⟨hfits, rfl⟩ := Stream.spells_iff.1 hspells
      exact decode_of_tells hfits hgrammar htells
  refine ⟨hdecode, ?_⟩
  constructor
  · rintro ⟨payload, h⟩
    obtain ⟨records, hspells, hgrammar, _⟩ := (hdecode payload).1 h
    exact ⟨records, hspells, hgrammar⟩
  · rintro ⟨records, hspells, hgrammar⟩
    obtain ⟨payload, htells⟩ := exists_tells hgrammar
    exact ⟨payload, (hdecode payload).2 ⟨records, hspells, hgrammar, htells⟩⟩

example : decode [2, 2, 1, 0, 4, 1, 144, 6, 8, 0, 0, 1, 0, 0, 2, 0, 3] =
    .ok ⟨⟨.bitcoin, ⟨1, 2, 3⟩, ⟨256⟩, 144⟩, none⟩ := by cbv

end Payload

end Lightpay.Onion
