import Lightpay.Store.Basic
import Mathlib.Data.List.Induction

/-! The version that a store is marked with. A text is a version if it spells a number of 32 bits,
with a plus sign in front or without, and any other text has one fault. Opening asks for the current
version, and marks a store that has none. -/

namespace Lightpay.Store

def unsigned (text : String) : List Char :=
  match text.toList with
  | '+' :: digits => digits
  | digits => digits

/-- The text is the number in decimal digits. -/
structure Spells (text : String) (version : UInt32) : Prop where
  nonempty : unsigned text ≠ []
  digits : ∀ c ∈ unsigned text, c.isDigit
  value : Nat.ofDigitChars 10 (unsigned text) 0 = version.toNat

/-- Why characters are no number of 32 bits: what comes first from the left counts. -/
inductive Breaks : List Char → VersionFault → Prop
  | invalidDigit {front rest : List Char} {c : Char} (hdigits : ∀ d ∈ front, d.isDigit)
      (hfits : Nat.ofDigitChars 10 front 0 < UInt32.size) (hc : ¬ c.isDigit) :
    Breaks (front ++ c :: rest) .invalidDigit
  | tooLarge {front rest : List Char} {c : Char} (hdigits : ∀ d ∈ front ++ [c], d.isDigit)
      (hfits : Nat.ofDigitChars 10 front 0 < UInt32.size)
      (hlarge : UInt32.size ≤ Nat.ofDigitChars 10 (front ++ [c]) 0) :
    Breaks (front ++ c :: rest) .tooLarge

/-- Why a text is no version. -/
inductive Misspells : String → VersionFault → Prop
  | empty : Misspells "" .empty
  | sign : Misspells "+" .invalidDigit
  | digits {text : String} {fault : VersionFault} (h : Breaks (unsigned text) fault) :
    Misspells text fault

/-- What opening comes to. -/
inductive Opening (store : Store) : Except OpenError Store → Prop
  | unmarked (hmark : store.version = none) :
    Opening store (.ok { store with version := some "0" })
  | current {text : String} (hmark : store.version = some text) (hspells : Spells text 0) :
    Opening store (.ok store)
  | unknown {text : String} {version : UInt32} (hmark : store.version = some text)
      (hspells : Spells text version) (hother : version ≠ 0) :
    Opening store (.error (.unknownVersion version))
  | unreadable {text : String} {fault : VersionFault} (hmark : store.version = some text)
      (hmisspells : Misspells text fault) : Opening store (.error (.unreadableVersion fault))

variable {text : String} {version : UInt32} {fault : VersionFault} {number : Nat}
  {front rest cs : List Char} {c : Char} {store reached : Store} {result : Except OpenError Store}

theorem le_ofDigitChars (number : Nat) (cs : List Char) :
    number ≤ Nat.ofDigitChars 10 cs number := by
  induction cs generalizing number with
  | nil => exact Nat.le_refl _
  | cons c cs ih =>
    have hnext : number ≤ 10 * number + (c.toNat - '0'.toNat) := by omega
    rw [Nat.ofDigitChars_cons]
    exact Nat.le_trans hnext (ih _)

theorem readDigits_cons (hc : c.isDigit) : readDigits number (c :: rest) =
    if UInt32.size ≤ Nat.ofDigitChars 10 [c] number then .error .tooLarge
    else readDigits (Nat.ofDigitChars 10 [c] number) rest := by
  rw [readDigits, if_neg (by simpa using hc)]
  rfl

theorem readDigits_append (hdigits : ∀ d ∈ front, d.isDigit)
    (hfits : Nat.ofDigitChars 10 front number < UInt32.size) :
    readDigits number (front ++ rest) = readDigits (Nat.ofDigitChars 10 front number) rest := by
  induction front generalizing number with
  | nil => rfl
  | cons c front ih =>
    obtain ⟨hc, hdigits⟩ := List.forall_mem_cons.1 hdigits
    have hnext : Nat.ofDigitChars 10 [c] number < UInt32.size :=
      Nat.lt_of_le_of_lt (le_ofDigitChars _ front) hfits
    rw [List.cons_append, readDigits_cons hc, if_neg (Nat.not_le.2 hnext)]
    exact ih hdigits hfits

theorem readDigits_of_fits (hdigits : ∀ d ∈ cs, d.isDigit)
    (hvalue : Nat.ofDigitChars 10 cs 0 = version.toNat) : readDigits 0 cs = .ok version := by
  have hfits : Nat.ofDigitChars 10 cs 0 < UInt32.size := hvalue ▸ version.toNat_lt
  have hread : readDigits 0 (cs ++ []) = readDigits (Nat.ofDigitChars 10 cs 0) [] :=
    readDigits_append hdigits hfits
  rwa [List.append_nil, readDigits, hvalue, UInt32.ofNat_toNat] at hread

theorem readDigits_of_breaks (h : Breaks cs fault) : readDigits 0 cs = .error fault := by
  cases h with
  | invalidDigit hdigits hfits hc => rw [readDigits_append hdigits hfits, readDigits, if_pos hc]
  | tooLarge hdigits hfits hlarge =>
    obtain ⟨hfront, hc⟩ := List.forall_mem_append.1 hdigits
    rw [Nat.ofDigitChars_append] at hlarge
    rw [readDigits_append hfront hfits, readDigits_cons (hc _ (List.mem_singleton_self _)),
      if_pos hlarge]

theorem breaks_append (h : Breaks cs fault) (more : List Char) : Breaks (cs ++ more) fault := by
  cases h with
  | invalidDigit hdigits hfits hc =>
    rw [List.append_assoc]
    exact .invalidDigit hdigits hfits hc
  | tooLarge hdigits hfits hlarge =>
    rw [List.append_assoc]
    exact .tooLarge hdigits hfits hlarge

theorem digits_cases (cs : List Char) :
    ((∀ c ∈ cs, c.isDigit) ∧ Nat.ofDigitChars 10 cs 0 < UInt32.size) ∨
      ∃ fault, Breaks cs fault := by
  induction cs using List.reverseRecOn with
  | nil => exact .inl ⟨nofun, by decide⟩
  | append_singleton front c ih =>
    rcases ih with ⟨hdigits, hfits⟩ | ⟨fault, hbreaks⟩
    · by_cases hc : c.isDigit
      · have hall : ∀ d ∈ front ++ [c], d.isDigit :=
          List.forall_mem_append.2 ⟨hdigits, by simpa using hc⟩
        by_cases hlarge : UInt32.size ≤ Nat.ofDigitChars 10 (front ++ [c]) 0
        · exact .inr ⟨_, .tooLarge hall hfits hlarge⟩
        · exact .inl ⟨hall, Nat.not_le.1 hlarge⟩
      · exact .inr ⟨_, .invalidDigit hdigits hfits hc⟩
    · exact .inr ⟨fault, breaks_append hbreaks [c]⟩

theorem unsigned_eq_nil_iff : unsigned text = [] ↔ text = "" ∨ text = "+" := by
  rw [← String.toList_inj, ← String.toList_inj, unsigned]
  change _ ↔ text.toList = [] ∨ text.toList = ['+']
  split <;> simp_all

theorem readVersion_of_unsigned (h : unsigned text ≠ []) :
    readVersion text = readDigits 0 (unsigned text) := by
  rw [unsigned] at h ⊢
  rw [readVersion]
  split
  · rename_i htext
    rw [htext] at h
    exact absurd rfl h
  · rename_i htext
    rw [htext] at h
    exact absurd rfl h
  · rename_i htext
    rw [htext]
    rfl
  · rename_i hplus
    split
    · rename_i htext
      exact absurd htext (hplus _)
    · rfl

theorem readVersion_of_spells (h : Spells text version) : readVersion text = .ok version := by
  rw [readVersion_of_unsigned h.nonempty, readDigits_of_fits h.digits h.value]

theorem readVersion_of_misspells (h : Misspells text fault) : readVersion text = .error fault := by
  cases h with
  | empty => rfl
  | sign => rfl
  | digits hbreaks =>
    rw [readVersion_of_unsigned, readDigits_of_breaks hbreaks]
    intro hempty
    rw [hempty] at hbreaks
    cases readDigits_of_breaks hbreaks

theorem version_cases (text : String) :
    (∃ version, Spells text version) ∨ ∃ fault, Misspells text fault := by
  by_cases hnothing : unsigned text = []
  · rcases unsigned_eq_nil_iff.1 hnothing with rfl | rfl
    · exact .inr ⟨_, .empty⟩
    · exact .inr ⟨_, .sign⟩
  rcases digits_cases (unsigned text) with ⟨hdigits, hfits⟩ | ⟨fault, hbreaks⟩
  · exact .inl ⟨UInt32.ofNat _, hnothing, hdigits, (UInt32.toNat_ofNat_of_lt' hfits).symm⟩
  · exact .inr ⟨fault, .digits hbreaks⟩

theorem misspells_iff : (∃ fault, Misspells text fault) ↔ ∀ version, ¬ Spells text version := by
  constructor
  · rintro ⟨fault, hmisspells⟩ version hspells
    cases (readVersion_of_misspells hmisspells).symm.trans (readVersion_of_spells hspells)
  · intro hnone
    exact (version_cases text).resolve_left (not_exists.2 hnone)

theorem opened_of_opening (h : Opening store result) : store.opened = result := by
  rw [opened]
  cases h with
  | unmarked hmark => rw [hmark]; rfl
  | current hmark hspells =>
    rw [hmark]
    dsimp only
    rw [readVersion_of_spells hspells]
    rfl
  | unknown hmark hspells hother =>
    rw [hmark]
    dsimp only
    rw [readVersion_of_spells hspells]
    exact if_neg hother
  | unreadable hmark hmisspells =>
    rw [hmark]
    dsimp only
    rw [readVersion_of_misspells hmisspells]

theorem opening_opened (store : Store) : Opening store store.opened := by
  obtain ⟨result, h⟩ : ∃ result, Opening store result := by
    cases hmark : store.version with
    | none => exact ⟨_, .unmarked hmark⟩
    | some text =>
      rcases version_cases text with ⟨version, hspells⟩ | ⟨fault, hmisspells⟩
      · by_cases hcurrent : version = 0
        · subst hcurrent
          exact ⟨_, .current hmark hspells⟩
        · exact ⟨_, .unknown hmark hspells hcurrent⟩
      · exact ⟨_, .unreadable hmark hmisspells⟩
  rwa [opened_of_opening h]

/-- Opening comes to what the mark says. -/
theorem opened_iff : store.opened = result ↔ Opening store result := by
  constructor
  · rintro rfl
    exact opening_opened store
  · exact opened_of_opening

theorem exists_opened_iff : (∃ reached, store.opened = .ok reached) ↔
    store.version = none ∨ ∃ text, store.version = some text ∧ Spells text 0 := by
  simp only [opened_iff]
  constructor
  · rintro ⟨reached, hmark | ⟨hmark, hspells⟩⟩
    · exact .inl hmark
    · exact .inr ⟨_, hmark, hspells⟩
  · rintro (hmark | ⟨text, hmark, hspells⟩)
    · exact ⟨_, .unmarked hmark⟩
    · exact ⟨_, .current hmark hspells⟩

theorem opened_eq_unreadable_iff : store.opened = .error (.unreadableVersion fault) ↔
    ∃ text, store.version = some text ∧ Misspells text fault := by
  rw [opened_iff]
  constructor
  · rintro ⟨⟩
    exact ⟨_, ‹_›, ‹_›⟩
  · rintro ⟨text, hmark, hmisspells⟩
    exact .unreadable hmark hmisspells

theorem opened_eq_unknown_iff : store.opened = .error (.unknownVersion version) ↔
    version ≠ 0 ∧ ∃ text, store.version = some text ∧ Spells text version := by
  rw [opened_iff]
  constructor
  · rintro ⟨⟩
    exact ⟨‹_›, _, ‹_›, ‹_›⟩
  · rintro ⟨hother, text, hmark, hspells⟩
    exact .unknown hmark hspells hother

theorem eq_of_opened (h : store.opened = .ok reached) :
    reached = { store with version := some (store.version.getD "0") } := by
  cases opened_iff.1 h with
  | unmarked hmark => rw [hmark]; rfl
  | current hmark hspells => rw [hmark, Option.getD_some, ← hmark]

theorem spells_zero : Spells "0" 0 := ⟨nofun, by simp [unsigned], by decide⟩

theorem opened_of_opened (h : store.opened = .ok reached) : reached.opened = .ok reached := by
  rw [opened_iff]
  cases opened_iff.1 h with
  | unmarked hmark => exact .current rfl spells_zero
  | current hmark hspells => exact .current hmark hspells

end Lightpay.Store
