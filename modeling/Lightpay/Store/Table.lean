import Lightpay.PaymentHash

/-!
Texts under payment hashes, in the order of the hashes' bytes.
-/

namespace Lightpay.Store

structure Entry where
  key : PaymentHash
  text : String
deriving DecidableEq

structure Table where
  entries : List Entry
  ordered : entries.Pairwise (·.key < ·.key)
deriving DecidableEq

theorem lt_trans {a b c : PaymentHash} (h : a < b) (k : b < c) : a < c :=
  List.lt_trans (α := UInt8) h k

theorem lt_of_not_lt_of_ne {a b : PaymentHash} (h : ¬ a < b) (k : a ≠ b) : b < a := by
  have le : b.value.bytes ≤ a.value.bytes := List.not_lt.1 h
  refine (List.le_iff_lt_or_eq.1 le).resolve_right fun e => k ?_
  cases a with | mk a => cases b with | mk b => cases a; cases b; simp_all

namespace Table

def empty : Table := ⟨[], .nil⟩

def get? (table : Table) (key : PaymentHash) : Option String :=
  (table.entries.find? (·.key = key)).map (·.text)

/-- Puts an entry in its place, in place of one with its key. -/
def insertEntry (new : Entry) : List Entry → List Entry
  | [] => [new]
  | entry :: rest =>
    if new.key < entry.key then new :: entry :: rest
    else if new.key = entry.key then new :: rest
    else entry :: insertEntry new rest

theorem mem_insertEntry {new entry : Entry} {entries : List Entry}
    (h : entry ∈ insertEntry new entries) : entry = new ∨ entry ∈ entries := by
  induction entries with
  | nil => simpa [insertEntry] using h
  | cons first rest ih =>
    simp only [insertEntry] at h
    split at h
    · simpa using h
    · split at h
      · rcases List.mem_cons.1 h with h | h
        · exact .inl h
        · exact .inr (List.mem_cons_of_mem _ h)
      · rcases List.mem_cons.1 h with h | h
        · exact .inr (h ▸ List.mem_cons_self)
        · exact (ih h).imp_right (List.mem_cons_of_mem _)

theorem ordered_insertEntry (new : Entry) {entries : List Entry}
    (h : entries.Pairwise (·.key < ·.key)) :
    (insertEntry new entries).Pairwise (·.key < ·.key) := by
  induction entries with
  | nil => simp [insertEntry]
  | cons first rest ih =>
    obtain ⟨before, ordered⟩ := List.pairwise_cons.1 h
    simp only [insertEntry]
    split
    · rename_i less
      refine List.pairwise_cons.2 ⟨fun entry mem => ?_, h⟩
      rcases List.mem_cons.1 mem with rfl | mem
      · exact less
      · exact lt_trans less (before entry mem)
    · split
      · rename_i eq
        exact List.pairwise_cons.2 ⟨fun entry mem => eq ▸ before entry mem, ordered⟩
      · rename_i notLess notEq
        refine List.pairwise_cons.2 ⟨fun entry mem => ?_, ih ordered⟩
        rcases mem_insertEntry mem with rfl | mem
        · exact lt_of_not_lt_of_ne notLess notEq
        · exact before entry mem

def insert (table : Table) (key : PaymentHash) (text : String) : Table :=
  ⟨insertEntry ⟨key, text⟩ table.entries, ordered_insertEntry _ table.ordered⟩

def filter (table : Table) (keeps : Entry → Bool) : Table :=
  ⟨table.entries.filter keeps, table.ordered.filter _⟩

def erase (table : Table) (key : PaymentHash) : Table :=
  table.filter fun entry => entry.key ≠ key

end Table

end Lightpay.Store
