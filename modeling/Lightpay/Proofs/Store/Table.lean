import Lightpay.Store.Table

/-! A table read as a function of its keys. Keys are unique because they are in
order, so filtering decides about each text on its own. -/

namespace Lightpay.Store.Table

theorem key_irrefl (key : PaymentHash) : ¬ key < key :=
  List.lt_irrefl (α := UInt8) key.value.bytes

theorem eq_of_key_eq {entries : List Entry} {left right : Entry}
    (hordered : entries.Pairwise (·.key < ·.key)) (hl : left ∈ entries)
    (hr : right ∈ entries) (hkey : left.key = right.key) : left = right := by
  induction entries with
  | nil => cases hl
  | cons first rest ih =>
    obtain ⟨hfirst, hrest⟩ := List.pairwise_cons.1 hordered
    rcases List.mem_cons.1 hl with rfl | hleft
    · rcases List.mem_cons.1 hr with rfl | hright
      · rfl
      · exact absurd (hkey ▸ hfirst right hright) (key_irrefl _)
    · rcases List.mem_cons.1 hr with rfl | hright
      · exact absurd (hkey ▸ hfirst left hleft) (key_irrefl _)
      · exact ih hrest hleft hright

theorem get?_eq_some_iff {table : Table} {key : PaymentHash} {text : String} :
    table.get? key = some text ↔ ⟨key, text⟩ ∈ table.entries := by
  constructor
  · intro h
    obtain ⟨entry, hfind, htext⟩ := Option.map_eq_some_iff.1 h
    have hkey : entry.key = key := by simpa using List.find?_some hfind
    rw [← hkey, ← htext]
    exact List.mem_of_find?_eq_some hfind
  · intro h
    cases hfind : table.entries.find? (·.key = key) with
    | none => exact absurd rfl (of_decide_eq_false (Bool.eq_false_iff.2
        (List.find?_eq_none.1 hfind _ h)))
    | some entry =>
      have hkey : entry.key = key := by simpa using List.find?_some hfind
      have heq := eq_of_key_eq table.ordered (List.mem_of_find?_eq_some hfind) h hkey
      rw [get?, hfind, heq, Option.map_some]

theorem find?_insertEntry (new : Entry) (entries : List Entry) (key : PaymentHash) :
    (insertEntry new entries).find? (·.key = key) =
      if new.key = key then some new else entries.find? (·.key = key) := by
  induction entries with
  | nil => by_cases h : new.key = key <;> simp [insertEntry, h]
  | cons first rest ih =>
    rw [insertEntry]
    split
    · by_cases h : new.key = key <;> simp [h]
    split
    · rename_i heq
      by_cases h : new.key = key <;> simp [h, ← heq]
    · rename_i hne
      by_cases h : new.key = key
      · have hfirst : first.key ≠ key := fun hkey => hne (h.trans hkey.symm)
        simp [ih, h, hfirst]
      · simp only [List.find?_cons, ih, h, ↓reduceIte]

theorem get?_insert (table : Table) (key other : PaymentHash) (text : String) :
    (table.insert key text).get? other =
      if key = other then some text else table.get? other := by
  rw [get?, insert, find?_insertEntry]
  split <;> rfl

theorem get?_filter (table : Table) (keeps : Entry → Bool) (key : PaymentHash) :
    (table.filter keeps).get? key = (table.get? key).filter fun text => keeps ⟨key, text⟩ := by
  apply Option.ext
  intro text
  rw [get?_eq_some_iff, Option.filter_eq_some_iff, get?_eq_some_iff, filter, List.mem_filter]

end Lightpay.Store.Table
