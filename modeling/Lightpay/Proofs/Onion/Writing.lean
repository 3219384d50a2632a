import Lightpay.Proofs.Onion.PayloadGrammar
import Lightpay.Proofs.Tlv.Ending

/-! What a writer is told and what is read back. A writer takes the records whose types are above
all that it took before and refuses the others, and a refusal leaves no trace. Its bytes are the
records that it took, and reading them gives what was written. -/

namespace Lightpay.Onion.Writing

open Tlv

/-- What a writer is told to append. -/
inductive Entry where
  | raw (type : UInt64) (value : Bytes)
  | truncated (type n : UInt64)
  | fixed (type n : UInt64)
  | multiPart (part : MultiPart)

namespace Entry

def record : Entry → Record
  | raw type value => ⟨type, value⟩
  | truncated type n => ⟨type, Tlv.truncated n⟩
  | fixed type n => ⟨type, Tlv.fixed n⟩
  | multiPart part => ⟨MultiPart.recordType, part.encode⟩

def write (writer : Writer) : Entry → Except Tlv.Error Writer
  | raw type value => writer.put type value
  | truncated type n => writer.putTruncated type n
  | fixed type n => writer.putU64 type n
  | multiPart part => writer.put MultiPart.recordType part.encode

/-- The stream has a value for the entry, and reading the value gives what was written. -/
def ReadsBack (stream : Stream) : Entry → Prop
  | raw type value => stream.get? type = some value
  | truncated type n => ∃ value, stream.get? type = some value ∧ readTu64 type value = .ok n
  | fixed type n => ∃ value, stream.get? type = some value ∧ readU64 type value = .ok n
  | multiPart part => ∃ value, stream.get? MultiPart.recordType = some value ∧
      MultiPart.decode value = .ok part

end Entry

/-- Appends an entry. A writer that refuses it goes on as it was. -/
def step (writer : Writer) (entry : Entry) : Except Tlv.Error Unit × Writer :=
  match entry.write writer with
  | .ok next => (.ok (), next)
  | .error e => (.error e, writer)

/-- Appends entries one after the other; each comes with its answer. -/
def run (writer : Writer) : List Entry → List (Entry × Except Tlv.Error Unit) × Writer
  | [] => ([], writer)
  | entry :: entries =>
    let (answer, next) := step writer entry
    let (later, final) := run next entries
    ((entry, answer) :: later, final)

/-- The entries that were taken. -/
def accepted (writer : Writer) (entries : List Entry) : List Entry :=
  ((run writer entries).1.filter (·.2.isOk)).map (·.1)

/-- The writer has written these records. -/
structure Wrote (writer : Writer) (records : List Record) : Prop where
  bytes : writer.bytes = records.flatMap Record.encode
  last : writer.last = records.getLast?.map (·.type)
  ordered : records.Pairwise (·.type < ·.type)

variable {writer : Writer} {entry : Entry} {entries before after : List Entry}
  {records : List Record} {e : Tlv.Error}

theorem write_eq_put (writer : Writer) (entry : Entry) :
    entry.write writer = writer.put entry.record.type entry.record.value := by
  cases entry <;> rfl

theorem exists_write (entry : Entry) (h : After writer.last entry.record.type) : ∃ next,
    entry.write writer = .ok next ∧ next.bytes = writer.bytes ++ entry.record.encode := by
  rw [write_eq_put, Writer.put, Record.checkOrder_eq_ok_iff.2 h]
  exact ⟨_, rfl, rfl⟩

theorem step_of_after (h : After writer.last entry.record.type) : step writer entry =
    (.ok (), ⟨writer.bytes ++ entry.record.encode, some entry.record.type⟩) := by
  rw [step, write_eq_put, Writer.put, Record.checkOrder_eq_ok_iff.2 h]
  rfl

theorem step_of_le {p : UInt64} (hlast : writer.last = some p) (hle : entry.record.type ≤ p) :
    step writer entry = (.error (.unordered p entry.record.type), writer) := by
  have horder := Record.checkOrder_eq_error_iff.2 ⟨p, hlast, hle, rfl⟩
  rw [step, write_eq_put, Writer.put, horder]
  rfl

theorem step_cases (writer : Writer) (entry : Entry) :
    After writer.last entry.record.type ∨
      ∃ p, writer.last = some p ∧ entry.record.type ≤ p := by
  cases hlast : writer.last with
  | none => exact .inl nofun
  | some p =>
    rcases UInt64.lt_or_le p entry.record.type with hlt | hle
    · exact .inl fun _ hp => Option.some.inj hp ▸ hlt
    · exact .inr ⟨p, rfl, hle⟩

theorem step_eq_error_iff : (step writer entry).1 = .error e ↔
    ∃ p, writer.last = some p ∧ entry.record.type ≤ p ∧
      e = .unordered p entry.record.type := by
  rcases step_cases writer entry with hafter | ⟨p, hlast, hle⟩
  · rw [step_of_after hafter]
    refine iff_of_false nofun ?_
    rintro ⟨p, hlast, hle, _⟩
    exact UInt64.not_lt.2 hle (hafter p hlast)
  · rw [step_of_le hlast hle]
    simp [hlast, hle, eq_comm]

theorem step_of_refused (h : (step writer entry).1 = .error e) :
    step writer entry = (.error e, writer) := by
  obtain ⟨p, hlast, hle, rfl⟩ := step_eq_error_iff.1 h
  exact step_of_le hlast hle

theorem run_cons (writer : Writer) (entry : Entry) (entries : List Entry) :
    run writer (entry :: entries) =
      ((entry, (step writer entry).1) :: (run (step writer entry).2 entries).1,
        (run (step writer entry).2 entries).2) := rfl

theorem run_append (writer : Writer) (before after : List Entry) :
    run writer (before ++ after) =
      ((run writer before).1 ++ (run (run writer before).2 after).1,
        (run (run writer before).2 after).2) := by
  induction before generalizing writer with
  | nil => rfl
  | cons entry before ih => rw [List.cons_append, run_cons, ih, run_cons, List.cons_append]

theorem accepted_of_after (h : After writer.last entry.record.type) (entries : List Entry) :
    accepted writer (entry :: entries) = entry :: accepted (step writer entry).2 entries := by
  rw [accepted, run_cons, List.filter_cons_of_pos, List.map_cons, accepted]
  rw [step_of_after h]
  rfl

theorem accepted_of_refused (h : (step writer entry).1 = .error e) (entries : List Entry) :
    accepted writer (entry :: entries) = accepted writer entries := by
  rw [accepted, run_cons, List.filter_cons_of_neg, step_of_refused h, accepted]
  rw [h]
  exact Bool.false_ne_true

theorem mem_of_accepted (h : entry ∈ accepted writer entries) : entry ∈ entries := by
  induction entries generalizing writer with
  | nil => cases h
  | cons first entries ih =>
    rcases step_cases writer first with hafter | ⟨p, hlast, hle⟩
    · rw [accepted_of_after hafter] at h
      rcases List.mem_cons.1 h with rfl | h
      · exact List.mem_cons_self
      · exact List.mem_cons_of_mem _ (ih h)
    · have hrefused := congrArg Prod.fst (step_of_le hlast hle)
      rw [accepted_of_refused hrefused] at h
      exact List.mem_cons_of_mem _ (ih h)

theorem wrote_empty : Wrote .empty [] := ⟨rfl, rfl, .nil⟩

theorem lt_of_after {type : UInt64} (hordered : records.Pairwise (·.type < ·.type))
    (hafter : After (records.getLast?.map (·.type)) type) :
    ∀ record ∈ records, record.type < type := by
  rcases List.eq_nil_or_concat records with rfl | ⟨front, last, rfl⟩
  · nofun
  · rw [List.concat_eq_append] at hordered hafter ⊢
    rw [List.getLast?_concat] at hafter
    obtain ⟨_, _, hbelow⟩ := List.pairwise_append.1 hordered
    have hlast : last.type < type := hafter last.type rfl
    refine List.forall_mem_append.2 ⟨fun record hmem => ?_, by simpa using hlast⟩
    exact UInt64.lt_trans (hbelow record hmem last List.mem_cons_self) hlast

theorem wrote_append (h : Wrote writer records) (hafter : After writer.last entry.record.type) :
    Wrote (step writer entry).2 (records ++ [entry.record]) := by
  rw [step_of_after hafter]
  have hbelow := lt_of_after h.ordered (h.last ▸ hafter)
  refine ⟨?_, ?_, List.pairwise_append.2 ⟨h.ordered, List.pairwise_singleton _ _, ?_⟩⟩
  · rw [List.flatMap_append, List.flatMap_singleton, h.bytes]
  · rw [List.getLast?_concat]
    rfl
  · intro record hmem
    simpa using hbelow record hmem

theorem wrote_run (h : Wrote writer records) (entries : List Entry) :
    Wrote (run writer entries).2 (records ++ (accepted writer entries).map Entry.record) := by
  -- Any records may be written already: an entry that is taken becomes the last of them.
  induction entries generalizing writer records with
  | nil => simpa [accepted, run] using h
  | cons entry entries ih =>
    rw [run_cons]
    rcases step_cases writer entry with hafter | ⟨p, hlast, hle⟩
    · rw [accepted_of_after hafter, List.map_cons, List.append_cons]
      exact ih (wrote_append h hafter)
    · rw [accepted_of_refused (congrArg Prod.fst (step_of_le hlast hle)), step_of_le hlast hle]
      exact ih h

theorem last_run (entries : List Entry) :
    (run .empty entries).2.last =
      (accepted .empty entries).getLast?.map fun entry => entry.record.type := by
  rw [(wrote_run wrote_empty entries).last, List.nil_append, List.getLast?_map, Option.map_map]
  rfl

theorem Entry.fits_of_raw (hraw : ∀ type value, entry = .raw type value →
    value.length < UInt64.size) : entry.record.Fits := by
  cases entry with
  | raw type value => exact hraw type value rfl
  | truncated type n => exact Nat.lt_of_le_of_lt (length_truncated_le n) (by decide)
  | fixed type n =>
    exact Nat.lt_of_le_of_lt (Nat.le_of_eq (Bytes.length_ofNat 8 n.toNat)) (by decide)
  | multiPart part => exact Nat.lt_of_le_of_lt part.length_encode_le (by decide)

theorem Entry.readsBack {stream : Stream}
    (h : stream.get? entry.record.type = some entry.record.value) : entry.ReadsBack stream := by
  cases entry with
  | raw type value => exact h
  | truncated type n =>
    exact ⟨_, h, readTu64_eq_ok_iff.2 ⟨truncatedTo_truncated n.toNat_lt, toNat_truncated n⟩⟩
  | fixed type n =>
    exact ⟨_, h, readU64_eq_ok_iff.2 ⟨Bytes.length_ofNat 8 n.toNat, toNat_fixed n⟩⟩
  | multiPart part => exact ⟨_, h, MultiPart.decode_eq_ok_iff.2 part.spells_encode⟩

theorem decode_wrote {known : List UInt64} (h : Wrote writer records)
    (hfits : ∀ record ∈ records, record.Fits) (hknown : ∀ record ∈ records, record.type ∈ known) :
    Stream.decode known writer.bytes = .ok ⟨records⟩ := by
  have hreadable : Stream.Readable known none records :=
    ⟨h.ordered, fun _ _ => nofun, hfits, fun record hmem => .inl (hknown record hmem)⟩
  have hread := Stream.decodePartial_eq_ok_iff.2 ⟨records, hreadable, h.bytes, rfl⟩
  rw [Stream.decode, hread, Stream.keep_eq_self hknown]

theorem get?_wrote {record : Record} (h : Wrote writer records) (hmem : record ∈ records) :
    Stream.get? ⟨records⟩ record.type = some record.value := by
  have hknown : ∀ other ∈ records, other.type ∈ records.map (·.type) :=
    fun _ => List.mem_map_of_mem
  have hget := (Stream.get?_keep_eq_some_iff (hknown record hmem) h.ordered).2 hmem
  rwa [Stream.keep_eq_self hknown] at hget

/-- An entry is refused exactly if its type is not above the one that was taken last. The writer
stays as it was, and without the entry all the others get the same answers. Whoever knows the types
that were taken reads these records and from each what was written, as far as the lengths of the
values can be written at all. -/
theorem written_read (entries : List Entry) :
    (∀ before entry after, entries = before ++ entry :: after → ∃ answer later,
      (run .empty entries).1 = (run .empty before).1 ++ (entry, answer) :: later ∧
        (∀ e, answer = .error e ↔ ∃ last, (accepted .empty before).getLast? = some last ∧
          entry.record.type ≤ last.record.type ∧
          e = .unordered last.record.type entry.record.type) ∧
        ∀ e, answer = .error e →
          (run .empty (before ++ [entry])).2 = (run .empty before).2 ∧
            run .empty (before ++ after) =
              ((run .empty before).1 ++ later, (run .empty entries).2)) ∧
      ((∀ type value, .raw type value ∈ entries → value.length < UInt64.size) →
        ∀ known, (∀ entry ∈ accepted .empty entries, entry.record.type ∈ known) →
          ∃ stream, Stream.decode known (run .empty entries).2.bytes = .ok stream ∧
            stream.records = (accepted .empty entries).map Entry.record ∧
            ∀ entry ∈ accepted .empty entries, entry.ReadsBack stream) := by
  refine ⟨?_, ?_⟩
  · rintro before entry after rfl
    refine ⟨(step (run .empty before).2 entry).1,
      (run (step (run .empty before).2 entry).2 after).1, ?_, fun e => ?_, fun e hrefused => ?_⟩
    · rw [run_append, run_cons]
    · rw [step_eq_error_iff, last_run]
      simp [Option.map_eq_some_iff]
    · have hsame := congrArg Prod.snd (step_of_refused hrefused)
      rw [run_append, run_cons, run_append, run_append, run_cons, hsame]
      exact ⟨rfl, rfl⟩
  · intro hraw known hknown
    have hwrote : Wrote (run .empty entries).2 ((accepted .empty entries).map Entry.record) :=
      wrote_run wrote_empty entries
    have hfits : ∀ entry ∈ accepted .empty entries, entry.record.Fits := fun entry hmem =>
      Entry.fits_of_raw fun type value heq => hraw type value (heq ▸ mem_of_accepted hmem)
    refine ⟨_, decode_wrote hwrote (List.forall_mem_map.2 hfits) (List.forall_mem_map.2 hknown),
      rfl, fun entry hmem => ?_⟩
    exact Entry.readsBack (get?_wrote hwrote (List.mem_map_of_mem hmem))

def mixed : List Entry := [.truncated 2 256, .raw 1 [9], .fixed 6 5]

theorem written_read_mixed :
    (run .empty mixed).1.map (·.2) = [.ok (), .error (.unordered 2 1), .ok ()] ∧
      (run .empty mixed).2 = (run .empty [.truncated 2 256, .fixed 6 5]).2 ∧
      ∃ stream, Stream.decode [2, 6] [2, 2, 1, 0, 6, 8, 0, 0, 0, 0, 0, 0, 0, 5] = .ok stream ∧
        (Entry.truncated 2 256).ReadsBack stream ∧ (Entry.fixed 6 5).ReadsBack stream := by
  obtain ⟨hanswers, hread⟩ := written_read mixed
  obtain ⟨answer, later, _, herror, hrefused⟩ :=
    hanswers [.truncated 2 256] (.raw 1 [9]) [.fixed 6 5] rfl
  have hanswer : answer = .error (.unordered 2 1) :=
    (herror _).2 ⟨.truncated 2 256, rfl, by decide, rfl⟩
  obtain ⟨_, hwithout⟩ := hrefused _ hanswer
  have haccepted : accepted .empty mixed = [.truncated 2 256, .fixed 6 5] := rfl
  have hbytes : (run .empty mixed).2.bytes = [2, 2, 1, 0, 6, 8, 0, 0, 0, 0, 0, 0, 0, 5] := rfl
  have hknown : ∀ entry ∈ accepted .empty mixed, entry.record.type ∈ [2, 6] := by
    simp [haccepted, Entry.record]
  obtain ⟨stream, hdecode, _, hback⟩ := hread (by simp [mixed, UInt64.size]) [2, 6] hknown
  rw [hbytes] at hdecode
  refine ⟨rfl, (congrArg Prod.snd hwithout).symm, stream, hdecode, ?_, ?_⟩
  · exact hback _ (by simp [haccepted])
  · exact hback _ (by simp [haccepted])

end Lightpay.Onion.Writing
