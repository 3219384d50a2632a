import Lightpay.Proofs.Onion.Violations

/-! Records that no hop knows. The first of them that has an even type settles the verdict together
with what stands before it: its value counts for nothing, and neither does anything behind it.
Those of odd types count for nothing at all. -/

namespace Lightpay.Onion.Payload

open Tlv

/-- What is asked of the record types of a hop, and what is reported if it is not so. -/
structure Rule where
  type : UInt64
  kind : Violation.Kind
  holds : Bool

/-- The rules in the order in which they are judged. -/
def rules (types : List UInt64) (next : ShortChannelId) : List Rule :=
  [⟨2, .omitted, 2 ∈ types⟩, ⟨4, .omitted, 4 ∈ types⟩, ⟨6, .included, next.IsExit → 6 ∉ types⟩,
    ⟨8, .included, ¬ next.IsExit → 8 ∉ types⟩]

def firstBroken (types : List UInt64) (next : ShortChannelId) : Option Rule :=
  (rules types next).find? fun rule => ¬ rule.holds

/-- The next hop of records: the channel that one of them names, or the exit if none does. -/
inductive NextHop (records : List Record) : ShortChannelId → Prop
  | exit (habsent : ∀ value, ⟨6, value⟩ ∉ records) : NextHop records .exit
  | channel {value : Bytes} {packed : UInt64} (hmem : ⟨6, value⟩ ∈ records)
      (hlength : value.length = 8) (hpacked : packed.toNat = Bytes.toNat value) :
    NextHop records (.unpack packed)

/-- The verdict on records that end in front of a record of this type, which is not known and has
to be understood. A next hop of a wrong length comes first, then the rules, then the type. -/
inductive Verdict (records : List Record) (type : UInt64) : PayloadError → Prop
  | length {value : Bytes} (hmem : ⟨6, value⟩ ∈ records) (hlength : value.length ≠ 8) :
    Verdict records type (.tlv (.invalidLength 6 value.length))
  | rule {next : ShortChannelId} {rule : Rule} (hnext : NextHop records next)
      (hbroken : firstBroken (records.map (·.type)) next = some rule) :
    Verdict records type (.invalid ⟨rule.type, rule.kind, next.IsExit⟩)
  | required {next : ShortChannelId} (hnext : NextHop records next)
      (hkept : firstBroken (records.map (·.type)) next = none) :
    Verdict records type (.invalid ⟨type, .required, next.IsExit⟩)

/-- Behind records of these types, one of this type ends the reading: it is not known and has to be
understood, and none of those before it is in the way. -/
structure Ends (types : List UInt64) (type : UInt64) : Prop where
  ordered : types.Pairwise (· < ·)
  understood : ∀ other ∈ types, other ∈ knownTypes ∨ other % 2 ≠ 0
  below : ∀ other ∈ types, other < type
  unknown : type ∉ knownTypes
  even : type % 2 = 0

variable {types : List UInt64} {type : UInt64} {next : ShortChannelId} {e : PayloadError}
  {records others : List Record} {front required rest value bytes : Bytes}

theorem check_eq_firstBroken (types : List UInt64) (next : ShortChannelId) :
    check types next = match firstBroken types next with
      | none => .ok ()
      | some rule => .error ⟨rule.type, rule.kind, next.IsExit⟩ := by
  simp only [check, amountType, timelockType, nextHopType, MultiPart.recordType, firstBroken,
    rules]
  by_cases hamount : 2 ∈ types
  · by_cases htimelock : 4 ∈ types
    · by_cases hexit : next.IsExit
      · by_cases hnext : 6 ∈ types <;> simp [hamount, htimelock, hexit, hnext]
      · by_cases hmultiPart : 8 ∈ types <;> simp [hamount, htimelock, hexit, hmultiPart]
    · simp [hamount, htimelock]
  · simp [hamount]

/-- The known types are all that the rules ask about. -/
theorem check_types_keep (records : List Record) (next : ShortChannelId) :
    check (Stream.types ⟨Stream.keep knownTypes records⟩) next =
      check (records.map (·.type)) next := by
  have hmem : ∀ type ∈ knownTypes, type ∈ Stream.types ⟨Stream.keep knownTypes records⟩ ↔
      type ∈ records.map (·.type) := by
    intro type hknown
    rw [Stream.mem_types_keep_iff hknown, List.mem_map]
    constructor
    · rintro ⟨value, hmem⟩
      exact ⟨_, hmem, rfl⟩
    · rintro ⟨record, hmem, rfl⟩
      exact ⟨record.value, hmem⟩
  simp only [check, hmem amountType (by decide), hmem timelockType (by decide),
    hmem nextHopType (by decide), hmem MultiPart.recordType (by decide)]

theorem nextHop_of_named (hordered : records.Pairwise (·.type < ·.type))
    (h : NextHop records next) : nextHop ⟨Stream.keep knownTypes records⟩ = .ok next := by
  refine (nextHop_keep_eq_ok_iff hordered).2 ?_
  cases h with
  | exit habsent => exact ⟨fun value hmem => absurd hmem (habsent value), fun _ => rfl⟩
  | channel hmem hlength hpacked =>
    exact ⟨Stream.holds_of_mem hordered hmem ⟨hlength, _, hpacked, rfl⟩,
      fun habsent => absurd hmem (habsent _)⟩

theorem nextHop_of_length (hordered : records.Pairwise (·.type < ·.type))
    (hmem : ⟨6, value⟩ ∈ records) (hlength : value.length ≠ 8) :
    nextHop ⟨Stream.keep knownTypes records⟩ = .error (.invalidLength 6 value.length) := by
  have hget : Stream.get? ⟨Stream.keep knownTypes records⟩ nextHopType = some value :=
    (Stream.get?_keep_eq_some_iff (by decide) hordered).2 hmem
  rw [nextHop, hget]
  dsimp only
  rw [readU64, if_neg hlength]
  rfl

theorem length_or_named (records : List Record) :
    (∃ value, ⟨6, value⟩ ∈ records ∧ value.length ≠ 8) ∨ ∃ next, NextHop records next := by
  by_cases hnamed : ∃ value, (⟨6, value⟩ : Record) ∈ records
  · obtain ⟨value, hmem⟩ := hnamed
    by_cases hlength : value.length = 8
    · have hfits : Bytes.toNat value < UInt64.size := by
        have hlt := Bytes.toNat_lt value
        rwa [hlength] at hlt
      exact .inr ⟨_, .channel hmem hlength (UInt64.toNat_ofNat_of_lt' hfits)⟩
    · exact .inl ⟨value, hmem, hlength⟩
  · exact .inr ⟨.exit, .exit (not_exists.1 hnamed)⟩

theorem exists_verdict (records : List Record) (type : UInt64) : ∃ e, Verdict records type e := by
  rcases length_or_named records with ⟨value, hmem, hlength⟩ | ⟨next, hnext⟩
  · exact ⟨_, .length hmem hlength⟩
  · cases hbroken : firstBroken (records.map (·.type)) next with
    | none => exact ⟨_, .required hnext hbroken⟩
    | some rule => exact ⟨_, .rule hnext hbroken⟩

theorem decode_of_verdict (hordered : records.Pairwise (·.type < ·.type))
    (hread : Stream.decodePartial knownTypes bytes =
      (⟨Stream.keep knownTypes records⟩, .error (.unknownRequired type)))
    (h : Verdict records type e) : decode bytes = .error e := by
  cases h with
  | length hmem hlength =>
    rw [decode, hread]
    dsimp only
    rw [nextHop_of_length hordered hmem hlength]
    rfl
  | rule hnext hbroken =>
    refine (decode_eq_invalid_iff hread).2 ⟨_, nextHop_of_named hordered hnext,
      checkResult_required_eq_invalid_iff.2 (.inl ?_)⟩
    rw [check_types_keep, check_eq_firstBroken, hbroken]
  | required hnext hkept =>
    refine (decode_eq_invalid_iff hread).2 ⟨_, nextHop_of_named hordered hnext,
      checkResult_required_eq_invalid_iff.2 (.inr ⟨?_, rfl⟩)⟩
    rw [check_types_keep, check_eq_firstBroken, hkept]

/-- The types of the records and the next hop are all that the verdict is about. -/
theorem Verdict.congr (h : Verdict records type e)
    (htypes : others.map (·.type) = records.map (·.type))
    (hnext : ∀ value, ⟨6, value⟩ ∈ others ↔ ⟨6, value⟩ ∈ records) : Verdict others type e := by
  have hnames : ∀ {next}, NextHop records next → NextHop others next := by
    intro next hnamed
    cases hnamed with
    | exit habsent => exact .exit fun value hmem => habsent value ((hnext value).1 hmem)
    | channel hmem hlength hpacked => exact .channel ((hnext _).2 hmem) hlength hpacked
  cases h with
  | length hmem hlength => exact .length ((hnext _).2 hmem) hlength
  | rule hnamed hbroken => exact .rule (hnames hnamed) (by rw [htypes, hbroken])
  | required hnamed hkept => exact .required (hnames hnamed) (by rw [htypes, hkept])

theorem decode_append_required (hfront : Stream.Spells records front)
    (hends : Ends (records.map (·.type)) type) (hrequired : Record.Spells ⟨type, value⟩ required)
    (rest : Bytes) (h : Verdict records type e) :
    decode (front ++ (required ++ rest)) = .error e := by
  obtain ⟨hfits, rfl⟩ := Stream.spells_iff.1 hfront
  obtain ⟨hrequiredFits, rfl⟩ := Record.spells_iff.1 hrequired
  have hordered := List.pairwise_map.1 hends.ordered
  have hreadable : Stream.Readable knownTypes none records :=
    ⟨hordered, fun _ _ => nofun, hfits, List.forall_mem_map.1 hends.understood⟩
  exact decode_of_verdict hordered (Stream.decodePartial_append_required hreadable
    (List.forall_mem_map.1 hends.below) hrequiredFits hends.unknown hends.even rest) h

/-- Where the reading ends at a record that has to be understood, the verdict is the one on the
records before it. Another value of that record, other bytes behind it or other values of the
records before it, but for the next hop, change nothing. -/
theorem required_settles (hfront : Stream.Spells records front)
    (hends : Ends (records.map (·.type)) type) :
    (∃ e, Verdict records type e) ∧
      (∀ value required rest e, Record.Spells ⟨type, value⟩ required →
        (decode (front ++ (required ++ rest)) = .error e ↔ Verdict records type e)) ∧
      ∀ others otherFront, Stream.Spells others otherFront →
        others.map (·.type) = records.map (·.type) →
        (∀ value, ⟨6, value⟩ ∈ others ↔ ⟨6, value⟩ ∈ records) →
        ∀ value required rest otherValue otherRequired otherRest,
          Record.Spells ⟨type, value⟩ required → Record.Spells ⟨type, otherValue⟩ otherRequired →
          decode (otherFront ++ (otherRequired ++ otherRest)) =
            decode (front ++ (required ++ rest)) := by
  obtain ⟨verdict, hverdict⟩ := exists_verdict records type
  refine ⟨⟨verdict, hverdict⟩, ?_, ?_⟩
  · intro value required rest e hrequired
    refine ⟨fun h => ?_, decode_append_required hfront hends hrequired rest⟩
    have hsettled := decode_append_required hfront hends hrequired rest hverdict
    cases hsettled.symm.trans h
    exact hverdict
  · intro others otherFront hother htypes hnext value required rest _ _ _ hrequired hotherRequired
    -- Both come to the one verdict, which is about the types and the next hop only.
    rw [decode_append_required hfront hends hrequired rest hverdict]
    exact decode_append_required hother (htypes ▸ hends) hotherRequired _
      (hverdict.congr htypes hnext)

theorem required_settles_amount :
    decode [2, 2, 0, 7, 3, 1, 9, 4, 1, 144, 100, 1, 5, 255, 255] =
      .error (.invalid ⟨100, .required, true⟩) := by
  have hfront : Stream.Spells [⟨2, [0, 7]⟩, ⟨3, [9]⟩, ⟨4, [144]⟩]
      [2, 2, 0, 7, 3, 1, 9, 4, 1, 144] :=
    Stream.spells_iff.2 ⟨by simp [Record.Fits, UInt64.size], by cbv⟩
  have hrequired : Record.Spells ⟨100, [5]⟩ [100, 1, 5] :=
    Record.spells_iff.2 ⟨by simp [Record.Fits, UInt64.size], by cbv⟩
  have hunderstood : ∀ other ∈ [2, 3, 4], other ∈ knownTypes ∨ other % 2 ≠ 0 := by
    simp [knownTypes, amountType, timelockType]
  have hends : Ends [2, 3, 4] 100 :=
    ⟨by decide, hunderstood, by simp, by decide, by decide⟩
  obtain ⟨_, hverdict, _⟩ := required_settles hfront hends
  exact (hverdict [5] _ [255, 255] _ hrequired).2 (.required (.exit (by simp)) (by decide))

theorem even_of_known (h : type ∈ knownTypes) : type % 2 = 0 := by
  rcases by simpa [knownTypes] using h with rfl | rfl | rfl | rfl <;> rfl

/-- Records of odd types can be left out, whatever they hold and whatever becomes of the rest. -/
theorem odd_transparent {dropped : List Record} {fewer : Bytes}
    (hordered : records.Pairwise (·.type < ·.type)) (hbytes : Stream.Spells records bytes)
    (hodd : ∀ record ∈ dropped, record.type % 2 ≠ 0)
    (hfewer : Stream.Spells (records.filter (· ∉ dropped)) fewer) :
    decode fewer = decode bytes := by
  obtain ⟨hfits, rfl⟩ := Stream.spells_iff.1 hbytes
  obtain ⟨_, rfl⟩ := Stream.spells_iff.1 hfewer
  have hskipped : ∀ record ∈ records, ¬ decide (record ∉ dropped) = true →
      record.type ∉ knownTypes ∧ record.type % 2 ≠ 0 := by
    intro record _ hleft
    have hdropped := hodd record (by simpa using hleft)
    exact ⟨fun hknown => hdropped (even_of_known hknown), hdropped⟩
  rw [decode, decode, Stream.decodePartial_filter hordered hfits hskipped]

theorem odd_transparent_amount :
    decode [2, 2, 0, 7, 4, 0] = .error (.tlv (.nonMinimal 2)) ∧
      decode [1, 0, 2, 2, 0, 7, 3, 1, 9, 4, 0] = .error (.tlv (.nonMinimal 2)) := by
  have hbytes : Stream.Spells [⟨1, []⟩, ⟨2, [0, 7]⟩, ⟨3, [9]⟩, ⟨4, []⟩]
      [1, 0, 2, 2, 0, 7, 3, 1, 9, 4, 0] :=
    Stream.spells_iff.2 ⟨by simp [Record.Fits, UInt64.size], by cbv⟩
  have hfewer : Stream.Spells ([⟨1, []⟩, ⟨2, [0, 7]⟩, ⟨3, [9]⟩, ⟨4, []⟩].filter
      (· ∉ [(⟨1, []⟩ : Record), ⟨3, [9]⟩])) [2, 2, 0, 7, 4, 0] :=
    Stream.spells_iff.2 ⟨by simp [Record.Fits, UInt64.size], by cbv⟩
  have hsame := odd_transparent (by decide) hbytes (by decide) hfewer
  have hdecode : decode [2, 2, 0, 7, 4, 0] = .error (.tlv (.nonMinimal 2)) := by cbv
  exact ⟨hdecode, hsame ▸ hdecode⟩

end Lightpay.Onion.Payload
