import Lightpay.Proofs.Onion.PayloadGrammar
import Lightpay.Route

/-! The payloads of a route. A route gets them exactly if every hop after the first is reached
over a channel that can be named, and each payload reads back as the hop and the channel to
the next one. -/

namespace Lightpay

open Tlv Onion

namespace Hop

/-- The records of a hop, with the packed channel to the next one if there is one. -/
def records (hop : Hop) (onward : Option UInt64) : List Record :=
  [⟨Payload.amountType, truncated hop.amount.msat⟩,
    ⟨Payload.timelockType, truncated hop.timelock.toUInt64⟩] ++
  onward.toList.map (⟨Payload.nextHopType, fixed ·⟩) ++
  hop.multiPart.toList.map (⟨MultiPart.recordType, ·.encode⟩)

variable {hop : Hop} {next : ShortChannelId} {packed : UInt64}

theorem payload_exit (hop : Hop) :
    hop.payload .exit = .ok ((hop.records none).flatMap Record.encode) := by
  obtain ⟨node, channel, timelock, amount, multiPart⟩ := hop
  -- Appended from the left, as the writer does it, the records are the same by computation.
  rw [List.flatMap_eq_foldl]
  cases multiPart <;> rfl

theorem payload_of_pack? (hnext : next ≠ .exit) (hpacked : next.pack? = some packed) :
    hop.payload next = .ok ((hop.records (some packed)).flatMap Record.encode) := by
  obtain ⟨node, channel, timelock, amount, multiPart⟩ := hop
  have hexit : ¬ next.IsExit := hnext
  rw [List.flatMap_eq_foldl, payload, write]
  simp only [if_neg hexit, pack, hpacked]
  cases multiPart <;> rfl

theorem payload_of_not_packable (h : ¬ next.Packable) :
    hop.payload next = .error (.channelOutOfRange next) := by
  have hexit : ¬ next.IsExit := by
    rintro rfl
    exact h (by decide)
  rw [payload, write]
  simp only [if_neg hexit, pack, ShortChannelId.pack?, if_neg h]
  rfl

variable {onward : Option UInt64} {value : Bytes}

theorem mem_records_iff {record : Record} : record ∈ hop.records onward ↔
    record = ⟨2, truncated hop.amount.msat⟩ ∨ record = ⟨4, truncated hop.timelock.toUInt64⟩ ∨
      (∃ packed, onward = some packed ∧ record = ⟨6, fixed packed⟩) ∨
      ∃ part, hop.multiPart = some part ∧ record = ⟨8, part.encode⟩ := by
  simp only [records, List.mem_append, List.mem_cons, List.not_mem_nil, or_false, List.mem_map,
    Option.mem_toList, Payload.amountType, Payload.timelockType, Payload.nextHopType,
    MultiPart.recordType, or_assoc, eq_comm (b := record)]

theorem amount_mem_records :
    ⟨2, value⟩ ∈ hop.records onward ↔ value = truncated hop.amount.msat := by
  simp [mem_records_iff]

theorem timelock_mem_records :
    ⟨4, value⟩ ∈ hop.records onward ↔ value = truncated hop.timelock.toUInt64 := by
  simp [mem_records_iff]

theorem nextHop_mem_records :
    ⟨6, value⟩ ∈ hop.records onward ↔ ∃ packed, onward = some packed ∧ value = fixed packed := by
  simp [mem_records_iff]

theorem multiPart_mem_records :
    ⟨8, value⟩ ∈ hop.records onward ↔ ∃ part, hop.multiPart = some part ∧ value = part.encode := by
  simp [mem_records_iff]

theorem records_ordered (hop : Hop) (onward : Option UInt64) :
    (hop.records onward).Pairwise (·.type < ·.type) := by
  rw [records]
  cases onward <;> cases hop.multiPart <;>
    simp [Payload.amountType, Payload.timelockType, Payload.nextHopType, MultiPart.recordType]

theorem records_fit (hop : Hop) (onward : Option UInt64) :
    ∀ record ∈ hop.records onward, record.Fits := by
  intro record hmem
  have hlength : record.value.length ≤ 40 := by
    rcases mem_records_iff.1 hmem with rfl | rfl | ⟨packed, _, rfl⟩ | ⟨part, _, rfl⟩
    · exact Nat.le_trans (length_truncated_le _) (by decide)
    · exact Nat.le_trans (length_truncated_le _) (by decide)
    · exact Nat.le_trans (Nat.le_of_eq (Bytes.length_ofNat 8 _)) (by decide)
    · exact part.length_encode_le
  exact Nat.lt_of_le_of_lt hlength (by decide)

theorem records_even_known (hop : Hop) (onward : Option UInt64) :
    ∀ record ∈ hop.records onward, record.type ∈ [2, 4, 6, 8] := by
  intro record hmem
  rcases mem_records_iff.1 hmem with rfl | rfl | ⟨packed, _, rfl⟩ | ⟨part, _, rfl⟩ <;> simp

def told (hop : Hop) (next : ShortChannelId) : Payload :=
  ⟨⟨.bitcoin, next, hop.amount, hop.timelock⟩, hop.multiPart⟩

theorem tells_records (hnext : ∀ packed, onward = some packed → .unpack packed = next)
    (hexit : onward = none → next = .exit) :
    Payload.Tells (hop.records onward) (hop.told next) := by
  refine ⟨rfl, fun value hvalue => ?_, fun value hvalue => ?_, fun value hvalue => ?_,
    fun habsent => ?_, fun value hvalue => ?_, fun habsent => ?_⟩
  · rw [amount_mem_records.1 hvalue, toNat_truncated]
    rfl
  · rw [timelock_mem_records.1 hvalue, toNat_truncated]
    exact (UInt32.toNat_toUInt64 _).symm
  · obtain ⟨packed, honward, rfl⟩ := nextHop_mem_records.1 hvalue
    exact ⟨packed, (toNat_fixed packed).symm, (hnext packed honward).symm⟩
  · cases onward with
    | none => exact hexit rfl
    | some packed => exact absurd (nextHop_mem_records.2 ⟨packed, rfl, rfl⟩) (habsent _)
  · obtain ⟨part, hpart, rfl⟩ := multiPart_mem_records.1 hvalue
    exact ⟨part, hpart, part.spells_encode⟩
  · cases hpart : hop.multiPart with
    | none => exact hpart
    | some part => exact absurd (multiPart_mem_records.2 ⟨part, hpart, rfl⟩) (habsent _)

theorem grammar_records
    (hnext : ∀ packed, onward = some packed → ShortChannelId.unpack packed ≠ .exit)
    (hposition : onward = none ∨ hop.multiPart = none) : Payload.Grammar (hop.records onward) := by
  refine ⟨records_ordered hop onward,
    fun record hmem _ => records_even_known hop onward record hmem,
    ⟨_, amount_mem_records.2 rfl, truncatedTo_truncated hop.amount.msat.toNat_lt⟩,
    ⟨_, timelock_mem_records.2 rfl, truncatedTo_truncated ?_⟩, ?_⟩
  · rw [UInt32.toNat_toUInt64]
    exact hop.timelock.toNat_lt
  · cases onward with
    | none =>
      refine .inr ⟨fun value hvalue => ?_, fun value hvalue => ?_⟩
      · obtain ⟨packed, hpacked, _⟩ := nextHop_mem_records.1 hvalue
        cases hpacked
      · obtain ⟨part, _, rfl⟩ := multiPart_mem_records.1 hvalue
        exact MultiPart.exists_spells_iff.1 ⟨part, part.spells_encode⟩
    | some packed =>
      have hsingle : hop.multiPart = none := by simpa using hposition
      refine .inl ⟨⟨fixed packed, nextHop_mem_records.2 ⟨packed, rfl, rfl⟩,
        Bytes.length_ofNat 8 _, ?_⟩, fun value hvalue => ?_⟩
      · exact (Payload.unpack_ne_exit_iff (toNat_fixed packed).symm).1 (hnext packed rfl)
      · obtain ⟨part, hpart, _⟩ := multiPart_mem_records.1 hvalue
        cases hsingle.symm.trans hpart

theorem decode_records (hnext : ∀ packed, onward = some packed → .unpack packed = next)
    (hexit : onward = none ↔ next = .exit) (hposition : onward = none ∨ hop.multiPart = none) :
    Payload.decode ((hop.records onward).flatMap Record.encode) = .ok (hop.told next) := by
  refine Payload.decode_of_tells (records_fit hop onward) (grammar_records ?_ hposition)
    (tells_records hnext hexit.1)
  rintro packed rfl hunpack
  exact nomatch hexit.2 ((hnext packed rfl).symm.trans hunpack)

theorem decode_records_multiPart (hchannel : ShortChannelId.unpack packed ≠ .exit)
    (hmultiPart : hop.multiPart ≠ none) :
    Payload.decode ((hop.records (some packed)).flatMap Record.encode) =
      .error (.invalid ⟨8, .included, false⟩) := by
  obtain ⟨part, hpart⟩ := Option.ne_none_iff_exists'.1 hmultiPart
  have hordered := records_ordered hop (some packed)
  have hreadable := Payload.readable_iff.2 ⟨⟨hordered, fun record hmem _ =>
    records_even_known hop (some packed) record hmem⟩, records_fit hop (some packed)⟩
  have hnext : Payload.nextHop ⟨Stream.keep Payload.knownTypes (hop.records (some packed))⟩ =
      .ok (.unpack packed) := by
    refine (Payload.nextHop_keep_eq_ok_iff hordered).2 ⟨fun value hvalue => ?_, fun habsent => ?_⟩
    · obtain ⟨_, ⟨⟩, rfl⟩ := nextHop_mem_records.1 hvalue
      exact ⟨Bytes.length_ofNat 8 _, packed, (toNat_fixed packed).symm, rfl⟩
    · exact absurd (nextHop_mem_records.2 ⟨packed, rfl, rfl⟩) (habsent _)
  have htypes : Stream.types ⟨Stream.keep Payload.knownTypes (hop.records (some packed))⟩ =
      [2, 4, 6, 8] := by
    rw [records, hpart]
    rfl
  refine Payload.decode_of_check_eq_error
    (Stream.decodePartial_eq_ok_iff.2 ⟨_, hreadable, rfl, rfl⟩) hnext ?_
  have hfinal : decide (ShortChannelId.unpack packed).IsExit = false := decide_eq_false hchannel
  rw [htypes, Payload.check, hfinal]
  rfl

/-- The hop is reached over a channel, and the channel can be packed. -/
def Named (hop : Hop) : Prop := hop.channel ≠ .exit ∧ hop.channel.Packable

/-- Why the hop cannot be named, if it stands at `index` on its route. -/
def refusal (hop : Hop) (index : Nat) : Error :=
  if hop.channel = .exit then .noChannel index else .channelOutOfRange hop.channel

/-- How the payload of a hop reads: as the hop itself and the channel to the next one, except that
only the last hop may be told a multi-part record. -/
def reading (hop : Hop) (next : Option Hop) : Except PayloadError Payload :=
  if next ≠ none ∧ hop.multiPart ≠ none then .error (.invalid ⟨8, .included, false⟩)
  else .ok (hop.told ((next.map (·.channel)).getD .exit))

theorem reading_last (hop : Hop) :
    ∃ payload, hop.payload .exit = .ok payload ∧ Payload.decode payload = hop.reading none := by
  refine ⟨_, payload_exit hop, ?_⟩
  rw [reading, if_neg (fun h => h.1 rfl)]
  exact decode_records nofun (iff_of_true rfl rfl) (.inl rfl)

theorem reading_of_named {next : Hop} (hnamed : next.Named) (hop : Hop) :
    ∃ payload, hop.payload next.channel = .ok payload ∧
      Payload.decode payload = hop.reading (some next) := by
  obtain ⟨hchannel, hpackable⟩ := hnamed
  obtain ⟨packed, hpacked⟩ : ∃ packed, next.channel.pack? = some packed := by
    rw [ShortChannelId.pack?, if_pos hpackable]
    exact ⟨_, rfl⟩
  have hunpack := ShortChannelId.unpack_of_pack? hpacked
  refine ⟨_, payload_of_pack? hchannel hpacked, ?_⟩
  rw [reading]
  split
  · rename_i hmultiPart
    exact decode_records_multiPart (hunpack ▸ hchannel) hmultiPart.2
  · rename_i hsingle
    have hnone : hop.multiPart = none := by simpa using hsingle
    refine decode_records ?_ (iff_of_false (Option.some_ne_none packed) hchannel) (.inr hnone)
    rintro _ ⟨⟩
    exact hunpack

end Hop

namespace Route

variable {hop next : Hop} {payloads : List Bytes}

theorem payloadsFrom_single (hop : Hop) :
    ∃ payload, Payload.decode payload = hop.reading none ∧
      ∀ index, payloadsFrom index [hop] = .ok [payload] := by
  obtain ⟨payload, hpayload, hreading⟩ := hop.reading_last
  refine ⟨payload, hreading, fun index => ?_⟩
  rw [payloadsFrom, hpayload]
  rfl

theorem payloadsFrom_of_named (hnamed : next.Named) (hop : Hop) : ∃ payload,
    Payload.decode payload = hop.reading (some next) ∧ ∀ index rest,
      payloadsFrom index (hop :: next :: rest) =
        (payloadsFrom (index + 1) (next :: rest)).map (payload :: ·) := by
  obtain ⟨payload, hpayload, hreading⟩ := Hop.reading_of_named hnamed hop
  refine ⟨payload, hreading, fun index rest => ?_⟩
  have hexit : ¬ next.channel.IsExit := hnamed.1
  rw [payloadsFrom, if_neg hexit, hpayload]
  cases payloadsFrom (index + 1) (next :: rest) <;> rfl

theorem payloadsFrom_of_not_named (hnamed : ¬ next.Named) (index : Nat) (hop : Hop)
    (rest : List Hop) :
    payloadsFrom index (hop :: next :: rest) = .error (next.refusal (index + 1)) := by
  rw [payloadsFrom, Hop.refusal]
  by_cases hexit : next.channel = .exit
  · rw [if_pos hexit]
    exact if_pos hexit
  · have hpackable : ¬ next.channel.Packable := fun h => hnamed ⟨hexit, h⟩
    rw [if_neg hexit, Hop.payload_of_not_packable hpackable]
    exact if_neg hexit

theorem exists_payloadsFrom_iff (index : Nat) (hop : Hop) (rest : List Hop) :
    (∃ payloads, payloadsFrom index (hop :: rest) = .ok payloads) ↔ ∀ next ∈ rest, next.Named := by
  induction rest generalizing index hop with
  | nil =>
    obtain ⟨payload, _, hpayloads⟩ := payloadsFrom_single hop
    exact iff_of_true ⟨_, hpayloads index⟩ (List.forall_mem_nil _)
  | cons next rest ih =>
    rw [List.forall_mem_cons]
    by_cases hnamed : next.Named
    · obtain ⟨payload, _, hpayloads⟩ := payloadsFrom_of_named hnamed hop
      rw [hpayloads, ← ih (index + 1) next, and_iff_right hnamed]
      simp only [map_eq_ok_iff]
      constructor
      · rintro ⟨_, later, hlater, _⟩
        exact ⟨later, hlater⟩
      · rintro ⟨later, hlater⟩
        exact ⟨payload :: later, later, hlater, rfl⟩
    · rw [payloadsFrom_of_not_named hnamed]
      exact iff_of_false nofun fun h => hnamed h.1

theorem payloadsFrom_eq_error_iff (index : Nat) (hop : Hop) (rest : List Hop) (e : Error) :
    payloadsFrom index (hop :: rest) = .error e ↔
      ∃ before bad after, rest = before ++ bad :: after ∧ (∀ next ∈ before, next.Named) ∧
        ¬ bad.Named ∧ e = bad.refusal (index + before.length + 1) := by
  induction rest generalizing index hop with
  | nil =>
    obtain ⟨payload, _, hpayloads⟩ := payloadsFrom_single hop
    rw [hpayloads]
    exact iff_of_false nofun fun ⟨before, bad, after, h, _⟩ => by simp at h
  | cons next rest ih =>
    by_cases hnamed : next.Named
    · obtain ⟨payload, _, hpayloads⟩ := payloadsFrom_of_named hnamed hop
      -- Behind a hop that can be named, the first bad one stands one place further.
      have hindex : ∀ length, index + 1 + length + 1 = index + (length + 1) + 1 := by omega
      rw [hpayloads, map_eq_error_iff, ih]
      constructor
      · rintro ⟨before, bad, after, rfl, hbefore, hbad, rfl⟩
        refine ⟨next :: before, bad, after, rfl, List.forall_mem_cons.2 ⟨hnamed, hbefore⟩, hbad, ?_⟩
        rw [List.length_cons, hindex]
      · rintro ⟨before, bad, after, hrest, hbefore, hbad, rfl⟩
        cases before with
        | nil =>
          cases hrest
          exact absurd hnamed hbad
        | cons first before =>
          cases hrest
          refine ⟨before, bad, after, rfl, (List.forall_mem_cons.1 hbefore).2, hbad, ?_⟩
          rw [List.length_cons, hindex]
    · rw [payloadsFrom_of_not_named hnamed, Except.error.injEq]
      constructor
      · rintro rfl
        exact ⟨[], next, rest, rfl, List.forall_mem_nil _, hnamed, rfl⟩
      · rintro ⟨before, bad, after, hrest, hbefore, _, rfl⟩
        cases before with
        | nil =>
          cases hrest
          rfl
        | cons first before =>
          cases hrest
          exact absurd (hbefore next List.mem_cons_self) hnamed

theorem reading_of_payloadsFrom {index : Nat} {hops : List Hop}
    (h : payloadsFrom index hops = .ok payloads) : payloads.length = hops.length ∧
      ∀ (i : Nat) (hop : Hop), hops[i]? = some hop → ∃ payload, payloads[i]? = some payload ∧
        Payload.decode payload = hop.reading hops[i + 1]? := by
  cases hops with
  | nil =>
    cases h
    exact ⟨rfl, fun i hop hhop => by simp at hhop⟩
  | cons hop rest =>
    induction rest generalizing index hop payloads with
    | nil =>
      obtain ⟨payload, hreading, hpayloads⟩ := payloadsFrom_single hop
      cases h.symm.trans (hpayloads index)
      refine ⟨rfl, fun i other hother => ?_⟩
      cases i with
      | zero =>
        cases hother
        exact ⟨payload, rfl, hreading⟩
      | succ i => cases hother
    | cons next rest ih =>
      by_cases hnamed : next.Named
      · obtain ⟨payload, hreading, hpayloads⟩ := payloadsFrom_of_named hnamed hop
        rw [hpayloads, map_eq_ok_iff] at h
        obtain ⟨later, hlater, rfl⟩ := h
        obtain ⟨hlength, hreadings⟩ := ih next hlater
        refine ⟨by rw [List.length_cons, List.length_cons, hlength], fun i other hother => ?_⟩
        cases i with
        | zero =>
          cases hother
          exact ⟨payload, rfl, hreading⟩
        | succ i => exact hreadings i other hother
      · rw [payloadsFrom_of_not_named hnamed] at h
        cases h

theorem payloadsFrom_channel (index : Nat) (hop : Hop) (channel : ShortChannelId)
    (rest : List Hop) :
    payloadsFrom index ({ hop with channel } :: rest) = payloadsFrom index (hop :: rest) := by
  cases rest <;> rfl

theorem payloads_eq_error_iff (route : Route) (e : Error) :
    route.payloads = .error e ↔ ∃ before bad after, route.hops.tail = before ++ bad :: after ∧
      (∀ hop ∈ before, hop.Named) ∧ ¬ bad.Named ∧ e = bad.refusal (before.length + 1) := by
  rw [payloads]
  cases route.hops with
  | nil => exact iff_of_false nofun fun ⟨before, bad, after, h, _⟩ => by simp at h
  | cons hop rest =>
    rw [payloadsFrom_eq_error_iff]
    simp only [Nat.zero_add, List.tail_cons]

/-- A route has payloads exactly if every hop after the first can be named, and otherwise the first
that cannot is the reason. Each payload reads as its hop and the channel to the next one. -/
theorem payloads_reading (route : Route) :
    ((∃ payloads, route.payloads = .ok payloads) ↔ ∀ hop ∈ route.hops.tail, hop.Named) ∧
    (∀ e, route.payloads = .error e ↔ ∃ before bad after,
      route.hops.tail = before ++ bad :: after ∧ (∀ hop ∈ before, hop.Named) ∧ ¬ bad.Named ∧
        e = bad.refusal (before.length + 1)) ∧
    (∀ e, route.payloads ≠ .error (.tlv e)) ∧
    (∀ channel, { route with hops := route.hops.modifyHead ({ · with channel }) }.payloads =
      route.payloads) ∧
    ∀ payloads, route.payloads = .ok payloads → payloads.length = route.hops.length ∧
      ∀ (i : Nat) (hop : Hop), route.hops[i]? = some hop →
        ∃ payload, payloads[i]? = some payload ∧
          Payload.decode payload = hop.reading route.hops[i + 1]? := by
  refine ⟨?_, payloads_eq_error_iff route, fun e h => ?_, fun channel => ?_,
    fun payloads => reading_of_payloadsFrom⟩
  · rw [payloads]
    cases route.hops with
    | nil => exact iff_of_true ⟨[], rfl⟩ (List.forall_mem_nil _)
    | cons hop rest => exact exists_payloadsFrom_iff 0 hop rest
  · obtain ⟨_, bad, _, _, _, _, hrefusal⟩ := (payloads_eq_error_iff route _).1 h
    rw [Hop.refusal] at hrefusal
    split at hrefusal <;> cases hrefusal
  · rw [payloads, payloads]
    cases route.hops with
    | nil => rfl
    | cons hop rest => exact payloadsFrom_channel 0 hop channel rest

end Route

end Lightpay
