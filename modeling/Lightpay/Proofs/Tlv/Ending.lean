import Lightpay.Proofs.Tlv.Stream

/-! Where the reading of a stream stops. The records that are read are the longest complete ones in
front, up to the first that has to be understood and is not; what stands next says how the
reading ends. -/

namespace Lightpay.Tlv

variable {known : List UInt64} {previous : Option UInt64} {record : Record}
  {records kept : List Record} {bytes rest : Bytes} {e : Error}

namespace Record

/-- Why no record can be read from the front, judged from the left: the type is to be whole and in
its shortest form, then to come after the one before, then the length is to be like the type, and
then the value to be whole. -/
inductive Fault (previous : Option UInt64) : Bytes → Error → Prop
  | typeCut {bytes : Bytes} (hcut : BigSize.Cut bytes) : Fault previous bytes .unexpectedEnd
  | typeOverlong {front rest : Bytes} (hoverlong : BigSize.Overlong front) :
    Fault previous (front ++ rest) .nonCanonical
  | unordered {p type : UInt64} {front rest : Bytes} (hprevious : previous = some p)
      (htype : BigSize.Shortest type front) (hle : type ≤ p) :
    Fault previous (front ++ rest) (.unordered p type)
  | lengthCut {type : UInt64} {front bytes : Bytes} (htype : BigSize.Shortest type front)
      (hafter : After previous type) (hcut : BigSize.Cut bytes) :
    Fault previous (front ++ bytes) .unexpectedEnd
  | lengthOverlong {type : UInt64} {front length rest : Bytes}
      (htype : BigSize.Shortest type front) (hafter : After previous type)
      (hoverlong : BigSize.Overlong length) :
    Fault previous (front ++ (length ++ rest)) .nonCanonical
  | valueCut {type n : UInt64} {front length value : Bytes} (htype : BigSize.Shortest type front)
      (hafter : After previous type) (hlength : BigSize.Shortest n length)
      (hcut : value.length < n.toNat) :
    Fault previous (front ++ (length ++ value)) .unexpectedEnd

theorem checkOrder_eq_error_iff {type : UInt64} : checkOrder previous type = .error e ↔
    ∃ p, previous = some p ∧ type ≤ p ∧ e = .unordered p type := by
  cases previous with
  | none => simp [checkOrder]
  | some p =>
    rw [checkOrder]
    split
    · rename_i hlt
      simp [UInt64.not_le.2 hlt]
    · rename_i hle
      simp [UInt64.not_lt.1 hle, eq_comm]

theorem read_of_fault (h : Fault previous bytes e) : read previous bytes = .error e := by
  rw [read]
  cases h with
  | typeCut hcut => rw [BigSize.read_of_cut hcut]; rfl
  | typeOverlong hoverlong => rw [BigSize.read_of_overlong hoverlong]; rfl
  | unordered hprevious htype hle =>
    rw [BigSize.shortest_iff.1 htype, BigSize.read_encode_append]
    have horder := checkOrder_eq_error_iff.2 ⟨_, hprevious, hle, rfl⟩
    exact bind_eq_error_iff.2 (.inr ⟨_, rfl, bind_eq_error_iff.2 (.inl horder)⟩)
  | lengthCut htype hafter hcut =>
    rw [BigSize.shortest_iff.1 htype, BigSize.read_encode_append]
    simp only [bind, Except.bind, checkOrder_eq_ok_iff.2 hafter, BigSize.read_of_cut hcut]
  | lengthOverlong htype hafter hoverlong =>
    rw [BigSize.shortest_iff.1 htype, BigSize.read_encode_append]
    simp only [bind, Except.bind, checkOrder_eq_ok_iff.2 hafter,
      BigSize.read_of_overlong hoverlong]
  | valueCut htype hafter hlength hcut =>
    rw [BigSize.shortest_iff.1 htype, BigSize.read_encode_append]
    have hshort := List.take_of_length_le (Nat.le_of_lt hcut)
    simp only [bind, Except.bind, checkOrder_eq_ok_iff.2 hafter, BigSize.shortest_iff.1 hlength,
      BigSize.read_encode_append, hshort, if_pos hcut]
    rfl

theorem fault_of_read (h : read previous bytes = .error e) : Fault previous bytes e := by
  rw [read] at h
  rcases bind_eq_error_iff.1 h with htype | ⟨⟨type, afterType⟩, htype, hrest⟩
  · rcases BigSize.read_eq_error_iff.1 htype with ⟨hcut, rfl⟩ | ⟨⟨front, rest, hoverlong, rfl⟩, rfl⟩
    · exact .typeCut hcut
    · exact .typeOverlong hoverlong
  obtain rfl := BigSize.read_eq_ok_iff.1 htype
  have hshortest := BigSize.shortest_iff.2 (rfl : BigSize.encode type = _)
  rcases bind_eq_error_iff.1 hrest with horder | ⟨_, horder, hrest⟩
  · obtain ⟨p, hprevious, hle, rfl⟩ := checkOrder_eq_error_iff.1 horder
    exact .unordered hprevious hshortest hle
  have hafter := checkOrder_eq_ok_iff.1 horder
  rcases bind_eq_error_iff.1 hrest with hlength | ⟨⟨length, afterLength⟩, hlength, hvalue⟩
  · rcases BigSize.read_eq_error_iff.1 hlength with
      ⟨hcut, rfl⟩ | ⟨⟨front, rest, hoverlong, rfl⟩, rfl⟩
    · exact .lengthCut hshortest hafter hcut
    · exact .lengthOverlong hshortest hafter hoverlong
  obtain rfl := BigSize.read_eq_ok_iff.1 hlength
  dsimp only at hvalue
  split at hvalue
  · rename_i hpresent
    cases hvalue
    refine .valueCut hshortest hafter (BigSize.shortest_iff.2 rfl) ?_
    rw [List.length_take] at hpresent
    omega
  · cases hvalue

theorem read_eq_error_iff : read previous bytes = .error e ↔ Fault previous bytes e :=
  ⟨fault_of_read, read_of_fault⟩

end Record

namespace Stream

/-- Complete records stand in front of the bytes, the type of each above the one before. -/
inductive Leads : Option UInt64 → List Record → Bytes → Prop
  | nil {previous : Option UInt64} {bytes : Bytes} : Leads previous [] bytes
  | cons {previous : Option UInt64} {record : Record} {records : List Record} {first rest : Bytes}
      (hafter : After previous record.type) (hfirst : record.Spells first)
      (hrest : Leads (some record.type) records rest) :
    Leads previous (record :: records) (first ++ rest)

/-- There are no more of them: all that stand in front are these or the first of these. -/
structure Longest (previous : Option UInt64) (records : List Record) (bytes : Bytes) : Prop where
  leads : Leads previous records bytes
  longest : ∀ others, Leads previous others bytes → others <+: records

/-- A record is kept or skipped, unless its type is even and not known. -/
def understood (known : List UInt64) (record : Record) : Bool :=
  record.type ∈ known ∨ record.type % 2 ≠ 0

/-- How the reading ends on what stands behind the records that were read: with the bytes, at a
record that has to be understood and is not, or at bytes that are no further record. -/
inductive Ending (known : List UInt64) (previous : Option UInt64) :
    Bytes → Except Error Unit → Prop
  | done : Ending known previous [] (.ok ())
  | required {record : Record} {first rest : Bytes} (hafter : After previous record.type)
      (hfirst : record.Spells first) (hunknown : record.type ∉ known)
      (heven : record.type % 2 = 0) :
    Ending known previous (first ++ rest) (.error (.unknownRequired record.type))
  | fault {bytes : Bytes} {e : Error} (hmore : bytes ≠ [])
      (hfault : Record.Fault previous bytes e) : Ending known previous bytes (.error e)

theorem leads_cons_iff : Leads previous (record :: records) bytes ↔
    ∃ rest, Record.read previous bytes = .ok (record, rest) ∧
      Leads (some record.type) records rest := by
  constructor
  · intro h
    cases h with
    | @cons _ _ _ first rest hafter hfirst hrest =>
      obtain ⟨hfits, rfl⟩ := Record.spells_iff.1 hfirst
      exact ⟨rest, Record.read_encode_append hafter hfits rest, hrest⟩
  · rintro ⟨rest, hread, hrest⟩
    obtain ⟨hafter, hfits, rfl⟩ := Record.read_eq_ok_iff.1 hread
    exact .cons hafter (Record.spells_iff.2 ⟨hfits, rfl⟩) hrest

theorem longest_nil (h : Record.read previous bytes = .error e) : Longest previous [] bytes := by
  refine ⟨.nil, fun others hothers => ?_⟩
  cases others with
  | nil => exact List.nil_prefix
  | cons record records =>
    obtain ⟨rest, hread, _⟩ := leads_cons_iff.1 hothers
    cases h.symm.trans hread

theorem longest_cons (hread : Record.read previous bytes = .ok (record, rest))
    (h : Longest (some record.type) records rest) :
    Longest previous (record :: records) bytes := by
  refine ⟨leads_cons_iff.2 ⟨rest, hread, h.leads⟩, fun others hothers => ?_⟩
  cases others with
  | nil => exact List.nil_prefix
  | cons other others =>
    obtain ⟨_, hother, hrest⟩ := leads_cons_iff.1 hothers
    cases hread.symm.trans hother
    exact List.cons_prefix_cons.2 ⟨rfl, h.longest others hrest⟩

theorem exists_longest (previous : Option UInt64) (bytes : Bytes) :
    ∃ records, Longest previous records bytes := by
  cases hread : Record.read previous bytes with
  | error e => exact ⟨[], longest_nil hread⟩
  | ok next =>
    obtain ⟨record, rest⟩ := next
    obtain ⟨records, hrest⟩ := exists_longest (some record.type) rest
    exact ⟨record :: records, longest_cons hread hrest⟩
termination_by bytes.length
decreasing_by exact Record.length_rest_lt hread

theorem decodeFrom_of_ending {result : Except Error Unit}
    (h : Ending known previous bytes result) : decodeFrom known previous bytes = ([], result) := by
  cases h with
  | done => exact decodeFrom_nil known previous
  | required hafter hfirst hunknown heven =>
    obtain ⟨hfits, rfl⟩ := Record.spells_iff.1 hfirst
    rw [decodeFrom_encode_append hafter hfits, if_neg hunknown, if_pos heven]
  | fault hmore hfault =>
    have hread := Record.read_of_fault hfault
    rw [decodeFrom, if_neg hmore]
    split
    · rename_i herror
      cases hread.symm.trans herror
      rfl
    · rename_i hok
      cases hread.symm.trans hok

theorem decodePartial_append_required (h : Readable known none records)
    (hafter : ∀ other ∈ records, other.type < record.type) (hfits : record.Fits)
    (hunknown : record.type ∉ known) (heven : record.type % 2 = 0) (rest : Bytes) :
    decodePartial known (records.flatMap Record.encode ++ (record.encode ++ rest)) =
      (⟨keep known records⟩, .error (.unknownRequired record.type)) := by
  have hlast : After ((records.getLast?.map (·.type)).or none) record.type := by
    rw [Option.or_none]
    intro p hp
    obtain ⟨last, hlast, rfl⟩ := Option.map_eq_some_iff.1 hp
    exact hafter last (List.mem_of_getLast? hlast)
  have hending : Ending known _ (record.encode ++ rest) _ :=
    .required hlast (Record.spells_iff.2 ⟨hfits, rfl⟩) hunknown heven
  rw [decodePartial, decodeFrom_append h, decodeFrom_of_ending hending, List.append_nil]

theorem decodePartial_of_required {before : List Record}
    (hordered : (before ++ record :: records).Pairwise (·.type < ·.type))
    (hfits : ∀ other ∈ before ++ record :: records, other.Fits)
    (hunderstood : ∀ other ∈ before, other.type ∈ known ∨ other.type % 2 ≠ 0)
    (hunknown : record.type ∉ known) (heven : record.type % 2 = 0) :
    decodePartial known ((before ++ record :: records).flatMap Record.encode) =
      (⟨keep known before⟩, .error (.unknownRequired record.type)) := by
  obtain ⟨hbefore, _, hbelow⟩ := List.pairwise_append.1 hordered
  obtain ⟨hfitsBefore, hfitsBehind⟩ := List.forall_mem_append.1 hfits
  have hreadable : Readable known none before :=
    ⟨hbefore, fun _ _ => nofun, hfitsBefore, hunderstood⟩
  rw [List.flatMap_append, List.flatMap_cons]
  exact decodePartial_append_required hreadable
    (fun other hmem => hbelow other hmem record List.mem_cons_self)
    (hfitsBehind record List.mem_cons_self) hunknown heven (records.flatMap Record.encode)

theorem understood_cases (known : List UInt64) (records : List Record) :
    (∀ record ∈ records, record.type ∈ known ∨ record.type % 2 ≠ 0) ∨
      ∃ before record after, records = before ++ record :: after ∧
        (∀ other ∈ before, other.type ∈ known ∨ other.type % 2 ≠ 0) ∧
        record.type ∉ known ∧ record.type % 2 = 0 := by
  cases hfind : records.find? (fun record => ¬ understood known record) with
  | none =>
    have hall := List.find?_eq_none.1 hfind
    refine .inl fun record hmem => ?_
    simpa [understood, or_iff_not_imp_left] using hall record hmem
  | some record =>
    obtain ⟨hrecord, before, after, rfl, hbefore⟩ := List.find?_eq_some_iff_append.1 hfind
    refine .inr ⟨before, record, after, rfl, fun other hmem => ?_, ?_⟩
    · simpa [understood] using hbefore other hmem
    · simpa [understood] using hrecord

/-- Records that are skipped can be left out: what is read of the others is the same, and so is how
the reading ends. -/
theorem decodePartial_filter {p : Record → Bool} (hordered : records.Pairwise (·.type < ·.type))
    (hfits : ∀ record ∈ records, record.Fits)
    (hskipped : ∀ record ∈ records, ¬ p record → record.type ∉ known ∧ record.type % 2 ≠ 0) :
    decodePartial known ((records.filter p).flatMap Record.encode) =
      decodePartial known (records.flatMap Record.encode) := by
  rcases understood_cases known records with
    hall | ⟨before, record, after, rfl, hbefore, hunknown, heven⟩
  · have hreadable : Readable known none records := ⟨hordered, fun _ _ => nofun, hfits, hall⟩
    rw [decodePartial_eq_ok_iff.2 ⟨records, hreadable, rfl, rfl⟩]
    exact decodePartial_eq_ok_iff.2 ⟨records.filter p, hreadable.filter p, rfl,
      by rw [keep_filter fun record hmem hnot => (hskipped record hmem hnot).1]⟩
  · -- The record that ends the reading is even, so it stands among those that are left.
    obtain ⟨hskippedBefore, hskippedBehind⟩ := List.forall_mem_append.1 hskipped
    have hleft : p record := by
      by_contra hnot
      exact (hskippedBehind record List.mem_cons_self hnot).2 heven
    have hfilter : (before ++ record :: after).filter p =
        before.filter p ++ record :: after.filter p := by
      rw [List.filter_append, List.filter_cons_of_pos hleft]
    have horderedLeft := hordered.filter p
    have hfitsLeft : ∀ other ∈ (before ++ record :: after).filter p, other.Fits :=
      fun other hmem => hfits other (List.mem_of_mem_filter hmem)
    have hbeforeLeft : ∀ other ∈ before.filter p, other.type ∈ known ∨ other.type % 2 ≠ 0 :=
      fun other hmem => hbefore other (List.mem_of_mem_filter hmem)
    rw [hfilter] at horderedLeft hfitsLeft
    rw [hfilter, decodePartial_of_required horderedLeft hfitsLeft hbeforeLeft hunknown heven,
      decodePartial_of_required hordered hfits hbefore hunknown heven,
      keep_filter fun record hmem hnot => (hskippedBefore record hmem hnot).1]

/-- What reading comes to: of the longest complete records in front, those before the first that is
not understood are read, the known among them are kept, and the rest of the bytes ends it. -/
def Reads (known : List UInt64) (previous : Option UInt64) (bytes : Bytes) (kept : List Record)
    (result : Except Error Unit) : Prop :=
  ∃ complete front rest, Longest previous complete bytes ∧ bytes = front ++ rest ∧
    Spells (complete.takeWhile (understood known)) front ∧
    kept = keep known (complete.takeWhile (understood known)) ∧
    Ending known (((complete.takeWhile (understood known)).getLast?.map (·.type)).or previous)
      rest result

/-- One step: a record that is understood comes in front of what is read behind it. -/
theorem reads_cons {result : Except Error Unit}
    (hread : Record.read previous bytes = .ok (record, rest))
    (hunderstood : record.type ∈ known ∨ record.type % 2 ≠ 0)
    (h : Reads known (some record.type) rest kept result) :
    Reads known previous bytes (keep known [record] ++ kept) result := by
  obtain ⟨complete, front, left, hlongest, rfl, hspells, rfl, hending⟩ := h
  obtain ⟨hafter, hfits, hbytes⟩ := Record.read_eq_ok_iff.1 hread
  have htake : (record :: complete).takeWhile (understood known) =
      record :: complete.takeWhile (understood known) :=
    List.takeWhile_cons_of_pos (decide_eq_true hunderstood)
  refine ⟨record :: complete, record.encode ++ front, left, longest_cons hread hlongest, ?_, ?_,
    ?_, ?_⟩
  · rw [hbytes, List.append_assoc]
  · rw [htake]
    exact .cons (Record.spells_iff.2 ⟨hfits, rfl⟩) hspells
  · rw [htake, keep, keep, keep, ← List.filter_append, List.singleton_append]
  · rw [htake, lastType_cons]
    exact hending

theorem reads_decodeFrom (known : List UInt64) (previous : Option UInt64) (bytes : Bytes) :
    Reads known previous bytes (decodeFrom known previous bytes).1
      (decodeFrom known previous bytes).2 := by
  fun_induction decodeFrom known previous bytes with
  | case1 previous => exact ⟨[], [], [], longest_nil rfl, rfl, .nil, rfl, .done⟩
  | case2 previous bytes hmore e hread =>
    exact ⟨[], [], bytes, longest_nil hread, rfl, .nil, rfl,
      .fault hmore (Record.fault_of_read hread)⟩
  | case3 previous bytes _ record rest hread hknown later result hlater ih =>
    rw [hlater] at ih
    have hreads := reads_cons hread (.inl hknown) ih
    rwa [keep_cons_of_mem hknown] at hreads
  | case4 previous bytes _ record rest hread hunknown heven =>
    -- The record is among the complete ones, but reading ends on it.
    obtain ⟨complete, hlongest⟩ := exists_longest (some record.type) rest
    obtain ⟨hafter, hfits, rfl⟩ := Record.read_eq_ok_iff.1 hread
    have htake : (record :: complete).takeWhile (understood known) = [] :=
      List.takeWhile_cons_of_neg (by simp [understood, hunknown, heven])
    refine ⟨record :: complete, [], _, longest_cons hread hlongest, rfl, ?_, ?_, ?_⟩
    · rw [htake]
      exact .nil
    · rw [htake]
      rfl
    · rw [htake]
      exact .required hafter (Record.spells_iff.2 ⟨hfits, rfl⟩) hunknown heven
  | case5 previous bytes _ record rest hread hunknown hodd ih =>
    have hreads := reads_cons hread (.inr hodd) ih
    rwa [keep_cons_of_not_mem hunknown] at hreads

/-- Every byte string is classified: its longest complete records are read as far as they are
understood, the known among them are kept, and what stands next is the only reason to stop. -/
theorem decodePartial_ending (known : List UInt64) (bytes : Bytes) :
    ∃ complete front rest, Longest none complete bytes ∧ bytes = front ++ rest ∧
      Spells (complete.takeWhile (understood known)) front ∧
      (decodePartial known bytes).1 = ⟨keep known (complete.takeWhile (understood known))⟩ ∧
      ((decodePartial known bytes).2 = .ok () ↔ rest = []) ∧
      ∀ result, (decodePartial known bytes).2 = result ↔
        Ending known ((complete.takeWhile (understood known)).getLast?.map (·.type)) rest
          result := by
  obtain ⟨complete, front, rest, hlongest, hbytes, hspells, hkept, hending⟩ :=
    reads_decodeFrom known none bytes
  rw [Option.or_none] at hending
  have hresult : ∀ result, (decodeFrom known none bytes).2 = result ↔
      Ending known ((complete.takeWhile (understood known)).getLast?.map (·.type)) rest
        result := by
    intro result
    constructor
    · rintro rfl
      exact hending
    · intro h
      have hstop := (decodeFrom_of_ending hending).symm.trans (decodeFrom_of_ending h)
      exact congrArg Prod.snd hstop
  refine ⟨complete, front, rest, hlongest, hbytes, hspells, congrArg Stream.mk hkept, ?_, hresult⟩
  refine (hresult (.ok ())).trans ?_
  constructor
  · rintro ⟨⟩
    rfl
  · rintro rfl
    exact .done

example : decodePartial [2] [1, 0, 2, 1, 7, 2, 1] =
    (⟨[⟨2, [7]⟩]⟩, .error (.unordered 2 2)) := by cbv

end Stream

end Lightpay.Tlv
