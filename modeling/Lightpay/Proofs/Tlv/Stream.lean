import Lightpay.Proofs.Result
import Lightpay.Proofs.Tlv.BigSize
import Lightpay.Tlv.Stream
import Mathlib.Data.List.Nodup

/-! A stream that is read to its end is records written one after the other, and what is
kept of it are the known ones. -/

namespace Lightpay.Tlv

/-- The type comes after the one before, if there was one. -/
def After (previous : Option UInt64) (type : UInt64) : Prop := ∀ p, previous = some p → p < type

namespace Record

/-- The length of the value is a number that can be written. -/
def Fits (record : Record) : Prop := record.value.length < UInt64.size

/-- Type and length in their shortest forms, then the value. -/
def Spells (record : Record) (bytes : Bytes) : Prop :=
  ∃ type length n, BigSize.Shortest record.type type ∧ BigSize.Shortest n length ∧
    n.toNat = record.value.length ∧ bytes = type ++ length ++ record.value

variable {previous : Option UInt64} {record : Record} {bytes rest : Bytes}

theorem toNat_length (h : record.Fits) :
    (UInt64.ofNat record.value.length).toNat = record.value.length :=
  UInt64.toNat_ofNat_of_lt' h

theorem spells_iff : record.Spells bytes ↔ record.Fits ∧ bytes = record.encode := by
  constructor
  · rintro ⟨type, length, n, htype, hlength, hn, rfl⟩
    have hsize : n = UInt64.ofNat record.value.length := by
      rw [← hn, UInt64.ofNat_toNat]
    rw [BigSize.shortest_iff] at htype hlength
    refine ⟨?_, ?_⟩
    · rw [Fits, ← hn]
      exact n.toNat_lt
    · rw [htype, hlength, hsize, encode]
  · rintro ⟨hfits, rfl⟩
    exact ⟨_, _, UInt64.ofNat record.value.length, BigSize.shortest_iff.2 rfl,
      BigSize.shortest_iff.2 rfl, toNat_length hfits, rfl⟩

theorem encode_injective : Function.Injective encode := by
  intro record other h
  -- Both numbers in front say where they end, so the bytes are taken apart from the left.
  simp only [encode, List.append_assoc] at h
  have htype := BigSize.read_encode_append record.type
    (BigSize.encode (UInt64.ofNat record.value.length) ++ record.value)
  rw [h, BigSize.read_encode_append] at htype
  obtain ⟨htype, hrest⟩ := Prod.mk.inj (Except.ok.inj htype)
  have hlength := BigSize.read_encode_append (UInt64.ofNat record.value.length) record.value
  rw [← hrest, BigSize.read_encode_append] at hlength
  obtain ⟨_, hvalue⟩ := Prod.mk.inj (Except.ok.inj hlength)
  exact congrArg₂ Record.mk htype.symm hvalue.symm

theorem checkOrder_eq_ok_iff {type : UInt64} :
    checkOrder previous type = .ok () ↔ After previous type := by
  cases previous with
  | none => exact iff_of_true rfl nofun
  | some p =>
    rw [checkOrder, After]
    split <;> simp [*]

theorem encode_append (record : Record) (rest : Bytes) : record.encode ++ rest =
    BigSize.encode record.type ++ (BigSize.encode (UInt64.ofNat record.value.length) ++
      (record.value ++ rest)) := by
  simp only [encode, List.append_assoc]

theorem read_encode_append (hafter : After previous record.type) (hfits : record.Fits)
    (rest : Bytes) : read previous (record.encode ++ rest) = .ok (record, rest) := by
  rw [encode_append, read, BigSize.read_encode_append]
  simp only [bind, Except.bind, checkOrder_eq_ok_iff.2 hafter, BigSize.read_encode_append,
    toNat_length hfits, List.take_left, List.drop_left, Nat.lt_irrefl, ↓reduceIte]
  rfl

theorem encode_append_of_read (h : read previous bytes = .ok (record, rest)) :
    After previous record.type ∧ record.Fits ∧ bytes = record.encode ++ rest := by
  rw [read, bind_eq_ok_iff] at h
  obtain ⟨⟨type, afterType⟩, htype, h⟩ := h
  rw [bind_eq_ok_iff] at h
  obtain ⟨_, horder, h⟩ := h
  rw [bind_eq_ok_iff] at h
  obtain ⟨⟨length, afterLength⟩, hlength, h⟩ := h
  dsimp only at horder hlength h
  split at h
  · cases h
  · rename_i hpresent
    cases h
    have hvalue : (afterLength.take length.toNat).length = length.toNat :=
      Nat.le_antisymm (List.length_take_le _ _) (Nat.not_lt.1 hpresent)
    refine ⟨checkOrder_eq_ok_iff.1 horder, ?_, ?_⟩
    · rw [Fits, hvalue]
      exact length.toNat_lt
    · rw [encode_append, hvalue, UInt64.ofNat_toNat, List.take_append_drop,
        ← BigSize.read_eq_ok_iff.1 hlength, ← BigSize.read_eq_ok_iff.1 htype]

theorem read_eq_ok_iff : read previous bytes = .ok (record, rest) ↔
    After previous record.type ∧ record.Fits ∧ bytes = record.encode ++ rest := by
  constructor
  · exact encode_append_of_read
  · rintro ⟨hafter, hfits, rfl⟩
    exact read_encode_append hafter hfits rest

end Record

namespace Stream

/-- Records of a stream that is read to its end: their types increase from `previous` on, their
lengths can be written, and a type that is not known is odd. -/
structure Readable (known : List UInt64) (previous : Option UInt64) (records : List Record) :
    Prop where
  ordered : records.Pairwise (·.type < ·.type)
  after : ∀ record ∈ records, After previous record.type
  fits : ∀ record ∈ records, record.Fits
  understood : ∀ record ∈ records, record.type ∈ known ∨ record.type % 2 ≠ 0

/-- The bytes are the records one after the other. -/
inductive Spells : List Record → Bytes → Prop
  | nil : Spells [] []
  | cons {record : Record} {records : List Record} {first rest : Bytes}
      (hfirst : record.Spells first) (hrest : Spells records rest) :
    Spells (record :: records) (first ++ rest)

/-- The known among the records. -/
def keep (known : List UInt64) (records : List Record) : List Record :=
  records.filter (·.type ∈ known)

variable {known : List UInt64} {previous : Option UInt64} {record : Record}
  {records kept : List Record} {bytes rest : Bytes}

theorem keep_cons_of_mem (h : record.type ∈ known) :
    keep known (record :: records) = record :: keep known records :=
  List.filter_cons_of_pos (by simpa using h)

theorem keep_cons_of_not_mem (h : record.type ∉ known) :
    keep known (record :: records) = keep known records :=
  List.filter_cons_of_neg (by simpa using h)

theorem keep_eq_self (hknown : ∀ record ∈ records, record.type ∈ known) :
    keep known records = records :=
  List.filter_eq_self.2 fun record hmem => decide_eq_true (hknown record hmem)

theorem keep_filter {p : Record → Bool}
    (hunknown : ∀ record ∈ records, ¬ p record → record.type ∉ known) :
    keep known (records.filter p) = keep known records := by
  rw [keep, keep, List.filter_filter]
  refine List.filter_congr fun record hmem => ?_
  rw [Bool.and_eq_left_iff_imp]
  intro hknown
  by_contra hnot
  exact hunknown record hmem hnot (of_decide_eq_true hknown)

theorem readable_nil : Readable known previous [] := ⟨.nil, nofun, nofun, nofun⟩

theorem Readable.filter (h : Readable known previous records) (p : Record → Bool) :
    Readable known previous (records.filter p) where
  ordered := h.ordered.filter p
  after record hmem := h.after record (List.mem_of_mem_filter hmem)
  fits record hmem := h.fits record (List.mem_of_mem_filter hmem)
  understood record hmem := h.understood record (List.mem_of_mem_filter hmem)

theorem readable_cons_iff : Readable known previous (record :: records) ↔
    (After previous record.type ∧ record.Fits ∧ (record.type ∈ known ∨ record.type % 2 ≠ 0)) ∧
      Readable known (some record.type) records := by
  constructor
  · intro h
    obtain ⟨hfirst, hrest⟩ := List.pairwise_cons.1 h.ordered
    obtain ⟨hafter, _⟩ := List.forall_mem_cons.1 h.after
    obtain ⟨hfits, hallFit⟩ := List.forall_mem_cons.1 h.fits
    obtain ⟨hunderstood, hallUnderstood⟩ := List.forall_mem_cons.1 h.understood
    refine ⟨⟨hafter, hfits, hunderstood⟩, hrest, ?_, hallFit, hallUnderstood⟩
    rintro other hmem p ⟨⟩
    exact hfirst other hmem
  · rintro ⟨⟨hafter, hfits, hunderstood⟩, h⟩
    have hfirst : ∀ other ∈ records, record.type < other.type :=
      fun other hmem => h.after other hmem _ rfl
    refine ⟨List.pairwise_cons.2 ⟨hfirst, h.ordered⟩, ?_, List.forall_mem_cons.2 ⟨hfits, h.fits⟩,
      List.forall_mem_cons.2 ⟨hunderstood, h.understood⟩⟩
    refine List.forall_mem_cons.2 ⟨hafter, fun other hmem p hp => ?_⟩
    exact UInt64.lt_trans (hafter p hp) (hfirst other hmem)

theorem spells_iff :
    Spells records bytes ↔
      (∀ record ∈ records, record.Fits) ∧ bytes = records.flatMap Record.encode := by
  constructor
  · intro h
    induction h with
    | nil => exact ⟨nofun, rfl⟩
    | cons hfirst _ ih =>
      obtain ⟨hfits, rfl⟩ := Record.spells_iff.1 hfirst
      obtain ⟨hall, rfl⟩ := ih
      exact ⟨List.forall_mem_cons.2 ⟨hfits, hall⟩, rfl⟩
  · rintro ⟨hfits, rfl⟩
    induction records with
    | nil => exact .nil
    | cons record records ih =>
      obtain ⟨hfirst, hrest⟩ := List.forall_mem_cons.1 hfits
      exact .cons (Record.spells_iff.2 ⟨hfirst, rfl⟩) (ih hrest)

theorem spells_cons_iff : Spells (record :: records) bytes ↔
    ∃ rest, Record.read none bytes = .ok (record, rest) ∧ Spells records rest := by
  constructor
  · intro h
    cases h with
    | @cons _ _ first rest hfirst hrest =>
      obtain ⟨hfits, rfl⟩ := Record.spells_iff.1 hfirst
      have hafter : After none record.type := nofun
      exact ⟨rest, Record.read_encode_append hafter hfits rest, hrest⟩
  · rintro ⟨rest, hread, hrest⟩
    obtain ⟨_, hfits, rfl⟩ := Record.read_eq_ok_iff.1 hread
    exact .cons (Record.spells_iff.2 ⟨hfits, rfl⟩) hrest

/-- Bytes are cut into records in one way. -/
theorem spells_unique {others : List Record} (h : Spells records bytes)
    (hother : Spells others bytes) : records = others := by
  induction records generalizing others bytes with
  | nil =>
    cases h
    cases others with
    | nil => rfl
    | cons record others =>
      obtain ⟨_, hread, _⟩ := spells_cons_iff.1 hother
      cases hread
  | cons record records ih =>
    obtain ⟨rest, hread, hrest⟩ := spells_cons_iff.1 h
    cases others with
    | nil =>
      cases hother
      cases hread
    | cons other others =>
      obtain ⟨_, hreadOther, hrestOther⟩ := spells_cons_iff.1 hother
      cases hread.symm.trans hreadOther
      rw [ih hrest hrestOther]

@[simp] theorem decodeFrom_nil (known : List UInt64) (previous : Option UInt64) :
    decodeFrom known previous [] = ([], .ok ()) := by
  rw [decodeFrom, if_pos rfl]

theorem decodeFrom_encode_append (hafter : After previous record.type) (hfits : record.Fits)
    (rest : Bytes) :
    decodeFrom known previous (record.encode ++ rest) =
      if record.type ∈ known then
        (record :: (decodeFrom known (some record.type) rest).1,
          (decodeFrom known (some record.type) rest).2)
      else if record.type % 2 = 0 then ([], .error (.unknownRequired record.type))
      else decodeFrom known (some record.type) rest := by
  have hread := Record.read_encode_append hafter hfits rest
  have hbytes : record.encode ++ rest ≠ [] := by
    intro hempty
    rw [hempty] at hread
    cases hread
  rw [decodeFrom, if_neg hbytes]
  split
  · rename_i herror
    cases hread.symm.trans herror
  · rename_i hok
    cases hread.symm.trans hok
    rfl

theorem lastType_cons (record : Record) (records : List Record) (previous : Option UInt64) :
    ((record :: records).getLast?.map (·.type)).or previous =
      (records.getLast?.map (·.type)).or (some record.type) := by
  rw [List.getLast?_cons]
  cases records.getLast? <;> rfl

theorem decodeFrom_append (h : Readable known previous records) (rest : Bytes) :
    decodeFrom known previous (records.flatMap Record.encode ++ rest) =
      (keep known records ++
          (decodeFrom known ((records.getLast?.map (·.type)).or previous) rest).1,
        (decodeFrom known ((records.getLast?.map (·.type)).or previous) rest).2) := by
  induction records generalizing previous with
  | nil => rfl
  | cons record records ih =>
    obtain ⟨⟨hafter, hfits, hunderstood⟩, hrest⟩ := readable_cons_iff.1 h
    rw [List.flatMap_cons, List.append_assoc, decodeFrom_encode_append hafter hfits,
      lastType_cons, ih hrest]
    by_cases hknown : record.type ∈ known
    · rw [if_pos hknown, keep_cons_of_mem hknown, List.cons_append]
    · rw [if_neg hknown, if_neg (hunderstood.resolve_left hknown), keep_cons_of_not_mem hknown]

theorem records_of_decodeFrom (h : decodeFrom known previous bytes = (kept, .ok ())) :
    ∃ records, Readable known previous records ∧ bytes = records.flatMap Record.encode ∧
      kept = keep known records := by
  fun_induction decodeFrom known previous bytes generalizing kept with
  | case1 =>
    cases h
    exact ⟨[], readable_nil, rfl, rfl⟩
  | case2 => cases h
  | case3 previous bytes _ record rest hread hknown later result hlater ih =>
    cases h
    obtain ⟨hafter, hfits, rfl⟩ := Record.read_eq_ok_iff.1 hread
    obtain ⟨records, hrecords, rfl, rfl⟩ := ih hlater
    exact ⟨record :: records, readable_cons_iff.2 ⟨⟨hafter, hfits, .inl hknown⟩, hrecords⟩, rfl,
      (keep_cons_of_mem hknown).symm⟩
  | case4 => cases h
  | case5 previous bytes _ record rest hread hknown hodd ih =>
    -- What was skipped is a record in front of the others, and is not kept.
    obtain ⟨hafter, hfits, rfl⟩ := Record.read_eq_ok_iff.1 hread
    obtain ⟨records, hrecords, rfl, rfl⟩ := ih h
    exact ⟨record :: records, readable_cons_iff.2 ⟨⟨hafter, hfits, .inr hodd⟩, hrecords⟩, rfl,
      (keep_cons_of_not_mem hknown).symm⟩

/-- A stream is read to its end exactly if it is readable records one after the other. -/
theorem decodePartial_eq_ok_iff {stream : Stream} :
    decodePartial known bytes = (stream, .ok ()) ↔
      ∃ records, Readable known none records ∧ bytes = records.flatMap Record.encode ∧
        stream = ⟨keep known records⟩ := by
  constructor
  · intro h
    have hresult : (decodeFrom known none bytes).2 = .ok () := congrArg Prod.snd h
    have hstream : ⟨(decodeFrom known none bytes).1⟩ = stream := congrArg Prod.fst h
    obtain ⟨records, hrecords, hbytes, hkept⟩ := records_of_decodeFrom (Prod.ext rfl hresult)
    exact ⟨records, hrecords, hbytes, hkept ▸ hstream.symm⟩
  · rintro ⟨records, hrecords, rfl, rfl⟩
    have hread := decodeFrom_append hrecords []
    rw [List.append_nil, decodeFrom_nil, List.append_nil] at hread
    rw [decodePartial, hread]

theorem eq_of_type_eq (hordered : records.Pairwise (·.type < ·.type)) {left right : Record}
    (hleft : left ∈ records) (hright : right ∈ records) (htype : left.type = right.type) :
    left = right := by
  have hdistinct : (records.map (·.type)).Nodup :=
    List.pairwise_map.2 (hordered.imp fun hlt => UInt64.ne_of_lt hlt)
  exact List.inj_on_of_nodup_map hdistinct hleft hright htype

theorem holds_of_mem {type : UInt64} {value : Bytes} {P : Bytes → Prop}
    (hordered : records.Pairwise (·.type < ·.type)) (hvalue : ⟨type, value⟩ ∈ records)
    (hholds : P value) (other : Bytes) (hother : ⟨type, other⟩ ∈ records) : P other := by
  cases eq_of_type_eq hordered hother hvalue rfl
  exact hholds

theorem mem_iff_eq_of_mem {type : UInt64} {value other : Bytes}
    (hordered : records.Pairwise (·.type < ·.type)) (hvalue : ⟨type, value⟩ ∈ records) :
    ⟨type, other⟩ ∈ records ↔ other = value := by
  constructor
  · exact holds_of_mem (P := (· = value)) hordered hvalue rfl other
  · rintro rfl
    exact hvalue

theorem eq_of_mem_iff {others : List Record} (hordered : records.Pairwise (·.type < ·.type))
    (hothers : others.Pairwise (·.type < ·.type))
    (h : ∀ record, record ∈ records ↔ record ∈ others) : records = others := by
  have hdistinct : ∀ {list : List Record}, list.Pairwise (·.type < ·.type) → list.Nodup :=
    fun hlist => hlist.imp fun hlt heq => UInt64.ne_of_lt hlt (congrArg Record.type heq)
  refine List.Perm.eq_of_pairwise (fun left right _ _ hlt hgt => ?_) hordered hothers
    ((List.perm_ext_iff_of_nodup (hdistinct hordered) (hdistinct hothers)).2 h)
  exact absurd hgt (UInt64.lt_asymm hlt)

theorem mem_types_keep_iff {type : UInt64} (hknown : type ∈ known) :
    type ∈ types ⟨keep known records⟩ ↔ ∃ value, ⟨type, value⟩ ∈ records := by
  rw [types, List.mem_map]
  constructor
  · rintro ⟨⟨_, value⟩, hkept, rfl⟩
    exact ⟨value, List.mem_of_mem_filter hkept⟩
  · rintro ⟨value, hmem⟩
    exact ⟨_, List.mem_filter.2 ⟨hmem, by simpa using hknown⟩, rfl⟩

theorem get?_keep_eq_some_iff {type : UInt64} {value : Bytes} (hknown : type ∈ known)
    (hordered : records.Pairwise (·.type < ·.type)) :
    get? ⟨keep known records⟩ type = some value ↔ ⟨type, value⟩ ∈ records := by
  rw [get?, Option.map_eq_some_iff]
  constructor
  · rintro ⟨⟨found, _⟩, hfind, rfl⟩
    have htype : found = type := by simpa using List.find?_some hfind
    exact htype ▸ List.mem_of_mem_filter (List.mem_of_find?_eq_some hfind)
  · intro hmem
    have hkept : ⟨type, value⟩ ∈ keep known records :=
      List.mem_filter.2 ⟨hmem, by simpa using hknown⟩
    cases hfind : (keep known records).find? (·.type = type) with
    | none => exact absurd (List.find?_eq_none.1 hfind _ hkept) (by simp)
    | some record =>
      have htype : record.type = type := by simpa using List.find?_some hfind
      have hfound := List.mem_of_mem_filter (List.mem_of_find?_eq_some hfind)
      exact ⟨record, rfl, congrArg Record.value (eq_of_type_eq hordered hfound hmem htype)⟩

theorem get?_keep_eq_none_iff {type : UInt64} (hknown : type ∈ known) :
    get? ⟨keep known records⟩ type = none ↔ ∀ value, ⟨type, value⟩ ∉ records := by
  rw [get?, Option.map_eq_none_iff, List.find?_eq_none]
  constructor
  · intro habsent value hmem
    have hkept : ⟨type, value⟩ ∈ keep known records :=
      List.mem_filter.2 ⟨hmem, by simpa using hknown⟩
    simpa using habsent _ hkept
  · intro habsent record hkept
    have hmem := List.mem_of_mem_filter hkept
    simp only [decide_eq_true_eq]
    rintro rfl
    exact habsent record.value hmem

end Stream

end Lightpay.Tlv
