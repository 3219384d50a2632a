import Lightpay.Json.Parser
import Lightpay.Json.Printer
import Lightpay.Proofs.Text.Hex
import Mathlib.Data.List.TakeDrop

/-! Compact texts are read back as the values they were written from. A value may
stand in front of any text that ends it, so arrays and objects need no induction
of their own beyond their items and members. -/

namespace Lightpay.Json.Quoted

theorem pieces_simple (done : List Piece) (e c : Char) (tail : List Char) (hu : e ≠ 'u')
    (h : simpleEscape? e = some c) :
    pieces done ('\\' :: e :: tail) = pieces (.char c :: done) tail := by
  rw [pieces.eq_def]
  simp [hu, h]

theorem pieces_unit (done : List Piece) (c : Char) (tail : List Char) (h : c.toNat < 0x20) :
    pieces done ('\\' :: 'u' :: '0' :: '0' :: Hex.digit (c.toNat / 16) ::
      Hex.digit (c.toNat % 16) :: tail) = pieces (.unit c.toNat :: done) tail := by
  have hhigh := Hex.value?_digit (c.toNat / 16) (by omega)
  have hlow := Hex.value?_digit (c.toNat % 16) (by omega)
  have hzero : Hex.value? '0' = some 0 := by decide
  have hunit : unit? '0' '0' (Hex.digit (c.toNat / 16)) (Hex.digit (c.toNat % 16)) =
      some c.toNat := by
    simp only [unit?, hzero, hhigh, hlow, bind, Option.bind, pure]
    congr 1
    omega
  rw [pieces.eq_def]
  simp [hunit]

theorem pieces_plain (done : List Piece) (c : Char) (tail : List Char) (hq : c ≠ '"')
    (hb : c ≠ '\\') (h : ¬ c.toNat < 0x20) :
    pieces done (c :: tail) = pieces (.char c :: done) tail := by
  rw [pieces.eq_def]
  simp [hq, hb, h]

theorem escape_cases (c : Char) :
    (∃ e, e ≠ 'u' ∧ simpleEscape? e = some c ∧ escape c = ['\\', e]) ∨
    (c.toNat < 0x20 ∧ escape c =
      ['\\', 'u', '0', '0', Hex.digit (c.toNat / 16), Hex.digit (c.toNat % 16)]) ∨
    (c ≠ '"' ∧ c ≠ '\\' ∧ ¬ c.toNat < 0x20 ∧ escape c = [c]) := by
  unfold escape
  split
  · subst c
    exact .inl ⟨'"', by decide, by decide, rfl⟩
  split
  · subst c
    exact .inl ⟨'\\', by decide, by decide, rfl⟩
  split
  · subst c
    exact .inl ⟨'b', by decide, by decide, rfl⟩
  split
  · subst c
    exact .inl ⟨'f', by decide, by decide, rfl⟩
  split
  · subst c
    exact .inl ⟨'n', by decide, by decide, rfl⟩
  split
  · subst c
    exact .inl ⟨'r', by decide, by decide, rfl⟩
  split
  · subst c
    exact .inl ⟨'t', by decide, by decide, rfl⟩
  split
  · rename_i h
    exact .inr (.inl ⟨h, rfl⟩)
  · rename_i hquote hslash _ _ _ _ _ hcontrol
    exact .inr (.inr ⟨hquote, hslash, hcontrol, rfl⟩)

theorem pieces_escape (c : Char) :
    ∃ piece, (∀ done tail, pieces done (escape c ++ tail) = pieces (piece :: done) tail) ∧
      ∀ done rest, join done (piece :: rest) = join (c :: done) rest := by
  rcases escape_cases c with ⟨e, hu, he, h⟩ | ⟨hcontrol, h⟩ | ⟨hquote, hslash, hcontrol, h⟩
  · refine ⟨.char c, fun done tail => ?_, fun done rest => rfl⟩
    rw [h]
    exact pieces_simple done e c tail hu he
  · refine ⟨.unit c.toNat, fun done tail => ?_, fun done rest => ?_⟩
    · rw [h]
      exact pieces_unit done c tail hcontrol
    · have hlow : c.toNat < 0xd800 ∨ 0xdfff < c.toNat := .inl (by omega)
      rw [join.eq_def]
      simp [hlow]
  · refine ⟨.char c, fun done tail => ?_, fun done rest => rfl⟩
    rw [h]
    exact pieces_plain done c tail hquote hslash hcontrol

theorem pieces_emit (done : List Piece) (cs rest : List Char) :
    ∃ found, pieces done (emit cs rest) = some (done.reverse ++ found, rest) ∧
      ∀ before, join before found = some (before.reverse ++ cs) := by
  induction cs generalizing done with
  | nil =>
    refine ⟨[], ?_, fun before => ?_⟩
    · rw [emit, pieces.eq_def]
      simp
    · simp [join]
  | cons c cs ih =>
    obtain ⟨piece, hpiece, hjoin⟩ := pieces_escape c
    obtain ⟨found, hfound, hcs⟩ := ih (piece :: done)
    refine ⟨piece :: found, ?_, fun before => ?_⟩
    · rw [emit, hpiece, hfound]
      simp
    · rw [hjoin, hcs]
      simp

@[simp] theorem read_emit (s : String) (rest : List Char) :
    read (emit s.toList rest) = some (some s, rest) := by
  obtain ⟨found, hfound, hjoin⟩ := pieces_emit [] s.toList rest
  have hs := hjoin []
  simp only [List.reverse_nil, List.nil_append] at hfound hs
  simp only [read, hfound, Option.map_some, hs, String.ofList_toList]

end Lightpay.Json.Quoted

namespace Lightpay.Json

/-- What may stand behind a written value. -/
def Follows (rest : List Char) : Prop :=
  ∀ c ∈ rest.head?, c = ',' ∨ c = ']' ∨ c = '\x7d'

theorem head?_toDigits (n : Nat) (h : 0 < n) : (Nat.toDigits 10 n).head? ≠ some '0' := by
  induction n using Nat.strongRecOn with
  | ind n ih =>
    rw [Nat.toDigits_eq_if (by decide)]
    split
    · rename_i hlt
      have hdigit : ∀ d < 10, 0 < d → d.digitChar ≠ '0' := by decide
      simpa using hdigit n hlt h
    · rename_i hge
      have hhead := ih (n / 10) (by omega) (by omega)
      rw [List.head?_append]
      cases hne : Nat.toDigits 10 (n / 10) with
      | nil => exact absurd hne Nat.toDigits_ne_nil
      | cons d ds => simpa [hne] using hhead

theorem digits?_toDigits (n : Nat) (rest : List Char) (h : Follows rest) :
    digits? (Nat.toDigits 10 n ++ rest) = some (Nat.toDigits 10 n, rest) := by
  have hdigits : ∀ c ∈ Nat.toDigits 10 n, c.isDigit = true := fun c hc =>
    Nat.isDigit_of_mem_toDigits (by decide) (by decide) hc
  have hrest : rest.span Char.isDigit = ([], rest) := by
    rw [List.span_eq_takeWhile_dropWhile]
    cases rest with
    | nil => rfl
    | cons c tail =>
      have hc : c.isDigit = false := by
        rcases h c rfl with rfl | rfl | rfl <;> decide
      simp [hc]
  have hspan : (Nat.toDigits 10 n ++ rest).span Char.isDigit = (Nat.toDigits 10 n, rest) := by
    rw [List.span_eq_takeWhile_dropWhile] at hrest ⊢
    obtain ⟨htake, hdrop⟩ := Prod.mk.inj hrest
    rw [List.takeWhile_append_of_pos hdigits, List.dropWhile_append_of_pos hdigits, htake, hdrop,
      List.append_nil]
  unfold digits?
  rw [hspan]
  cases hne : Nat.toDigits 10 n with
  | nil => exact absurd hne Nat.toDigits_ne_nil
  | cons d ds => rfl

theorem skipFraction_follows (rest : List Char) (h : Follows rest) :
    skipFraction rest = some rest := by
  cases rest with
  | nil => rfl
  | cons c tail => rcases h c rfl with rfl | rfl | rfl <;> rfl

theorem skipExponent_follows (rest : List Char) (h : Follows rest) :
    skipExponent rest = some rest := by
  cases rest with
  | nil => rfl
  | cons c tail => rcases h c rfl with rfl | rfl | rfl <;> rfl

theorem unsigned_toDigits (n : Nat) (rest : List Char) (h : Follows rest) :
    unsigned (Nat.toDigits 10 n ++ rest) = some (Nat.toDigits 10 n, rest, rest) := by
  have hzero : ¬ ((Nat.toDigits 10 n).head? = some '0' ∧ (Nat.toDigits 10 n).length ≠ 1) := by
    rintro ⟨hhead, hlength⟩
    rcases Nat.eq_zero_or_pos n with rfl | hpos
    · exact hlength (by rw [Nat.toDigits_zero]; rfl)
    · exact head?_toDigits n hpos hhead
  simp only [unsigned, digits?_toDigits n rest h, Option.bind_eq_bind, Option.bind_some,
    if_neg hzero, skipFraction_follows rest h, skipExponent_follows rest h, Option.pure_def]

theorem number_toDigits (n : Nat) (rest : List Char) (h : Follows rest) :
    number (Nat.toDigits 10 n ++ rest) = some (.nat n, rest) := by
  have hu := unsigned_toDigits n rest h
  cases hne : Nat.toDigits 10 n with
  | nil => exact absurd hne Nat.toDigits_ne_nil
  | cons d ds =>
    have hdigit : d.isDigit = true :=
      Nat.isDigit_of_mem_toDigits (by decide) (by decide) (hne ▸ List.mem_cons_self)
    have hminus : d ≠ '-' := by
      rintro rfl
      exact absurd hdigit (by decide)
    have hvalue : Nat.ofDigitChars 10 (d :: ds) 0 = n := by
      rw [← hne]
      exact Nat.ofDigitChars_ten_toDigits
    rw [hne] at hu
    rw [List.cons_append] at hu ⊢
    unfold number
    simp [hu, hvalue, hminus]

mutual

/-- No part of the value is kept as a text of its own. -/
def Plain : Json → Prop
  | .foreign _ => False
  | .arr items => PlainItems items
  | .obj members => PlainMembers members
  | _ => True

def PlainItems : List Json → Prop
  | [] => True
  | item :: items => Plain item ∧ PlainItems items

def PlainMembers : List (String × Json) → Prop
  | [] => True
  | (_, value) :: members => Plain value ∧ PlainMembers members

end

theorem Quoted.length_lt_emit (cs rest : List Char) : rest.length < (emit cs rest).length := by
  induction cs with
  | nil => simp [emit]
  | cons c cs ih =>
    rw [emit, List.length_append]
    omega

mutual

theorem length_le_emit (rest : List Char) : ∀ json, rest.length ≤ (emit json rest).length
  | .null => by simp only [emit, List.length_cons]; omega
  | .bool true => by simp only [emit, List.length_cons]; omega
  | .bool false => by simp only [emit, List.length_cons]; omega
  | .nat n => by simp [emit]
  | .str s => by
    have h := Quoted.length_lt_emit s.toList rest
    simp only [emit, List.length_cons]
    omega
  | .arr [] => by simp only [emit, List.length_cons]; omega
  | .arr (item :: items) => by
    have htail := length_lt_emitItems rest items
    have hitem := length_le_emit (emitItems items rest) item
    simp only [emit, List.length_cons]
    omega
  | .obj [] => by simp only [emit, List.length_cons]; omega
  | .obj ((name, value) :: members) => by
    have htail := length_lt_emitMembers rest members
    have hvalue := length_le_emit (emitMembers members rest) value
    have hname := Quoted.length_lt_emit name.toList
      (':' :: emit value (emitMembers members rest))
    simp only [emit, List.length_cons] at hname ⊢
    omega
  | .foreign text => by simp [emit]

theorem length_lt_emitItems (rest : List Char) :
    ∀ items, rest.length < (emitItems items rest).length
  | [] => by simp [emitItems]
  | item :: items => by
    have htail := length_lt_emitItems rest items
    have hitem := length_le_emit (emitItems items rest) item
    simp only [emitItems, List.length_cons]
    omega

theorem length_lt_emitMembers (rest : List Char) :
    ∀ members, rest.length < (emitMembers members rest).length
  | [] => by simp [emitMembers]
  | (name, value) :: members => by
    have htail := length_lt_emitMembers rest members
    have hvalue := length_le_emit (emitMembers members rest) value
    have hname := Quoted.length_lt_emit name.toList
      (':' :: emit value (emitMembers members rest))
    simp only [emitMembers, List.length_cons] at hname ⊢
    omega

end

theorem skip_cons {c : Char} (tail : List Char) (h : isSpace c = false) :
    skip (c :: tail) = c :: tail := by
  rw [skip, List.dropWhile_cons_of_neg (by simp [h])]

theorem emit_head (json : Json) (rest : List Char) (h : json.Plain) :
    ∃ c tail, emit json rest = c :: tail ∧ isSpace c = false ∧ c ≠ ']' := by
  cases json with
  | null => exact ⟨_, _, rfl, by decide, by decide⟩
  | bool b => cases b <;> exact ⟨_, _, rfl, by decide, by decide⟩
  | nat n =>
    cases hne : Nat.toDigits 10 n with
    | nil => exact absurd hne Nat.toDigits_ne_nil
    | cons d ds =>
      have hdigit : d.isDigit = true :=
        Nat.isDigit_of_mem_toDigits (by decide) (by decide) (hne ▸ List.mem_cons_self)
      refine ⟨d, ds ++ rest, by rw [emit, hne, List.cons_append], ?_, ?_⟩
      · cases hspace : isSpace d with
        | false => rfl
        | true =>
          simp only [isSpace, Bool.or_eq_true, decide_eq_true_eq] at hspace
          rcases hspace with ((rfl | rfl) | rfl) | rfl <;> exact absurd hdigit (by decide)
      · rintro rfl
        exact absurd hdigit (by decide)
  | str s => exact ⟨_, _, by rw [emit], by decide, by decide⟩
  | arr items => cases items <;> exact ⟨_, _, by rw [emit], by decide, by decide⟩
  | obj members =>
    cases members with
    | nil => exact ⟨_, _, by rw [emit], by decide, by decide⟩
    | cons member members => exact ⟨_, _, by rw [emit], by decide, by decide⟩
  | foreign text => exact absurd h (by simp [Plain])

theorem skip_emit (json : Json) (rest : List Char) (h : json.Plain) :
    skip (emit json rest) = emit json rest := by
  obtain ⟨c, tail, heq, hspace, _⟩ := emit_head json rest h
  rw [heq, skip_cons tail hspace]

theorem Follows.cons {c : Char} (rest : List Char) (h : c = ',' ∨ c = ']' ∨ c = '\x7d') :
    Follows (c :: rest) := by
  intro d hd
  cases hd
  exact h

theorem follows_emitItems (items : List Json) (rest : List Char) :
    Follows (emitItems items rest) := by
  cases items with
  | nil => exact .cons _ (by decide)
  | cons item items => exact .cons _ (by decide)

theorem follows_emitMembers (members : List (String × Json)) (rest : List Char) :
    Follows (emitMembers members rest) := by
  cases members with
  | nil => exact .cons _ (by decide)
  | cons member members => exact .cons _ (by decide)

theorem value_toDigits (fuel n : Nat) (rest : List Char) (h : Follows rest) :
    value (fuel + 1) (Nat.toDigits 10 n ++ rest) = some (.nat n, rest) := by
  have hnumber := number_toDigits n rest h
  cases hne : Nat.toDigits 10 n with
  | nil => exact absurd hne Nat.toDigits_ne_nil
  | cons d ds =>
    have hdigit : d.isDigit = true :=
      Nat.isDigit_of_mem_toDigits (by decide) (by decide) (hne ▸ List.mem_cons_self)
    have hother (c : Char) (hc : c.isDigit = false) : d ≠ c := by
      rintro rfl
      exact absurd hdigit (by simp [hc])
    rw [hne, List.cons_append] at hnumber
    rw [List.cons_append, value.eq_def]
    simp [hother 'n' (by decide), hother 't' (by decide), hother 'f' (by decide),
      hother '"' (by decide), hother '[' (by decide), hother '\x7b' (by decide), hnumber]

theorem mapM_named (pair : Option String × Json → Option (String × Json))
    (hpair : ∀ name value, pair (some name, value) = some (name, value))
    (found : List (String × Json)) :
    (found.map fun m => (some m.1, m.2)).mapM pair = some found := by
  induction found with
  | nil => rfl
  | cons m found ih => simp [List.mapM_cons, hpair, ih]

theorem object_named (cs : List Char) (found : List (String × Json)) (rest : List Char) :
    object cs (found.map fun m => (some m.1, m.2)) rest = .obj found := by
  rw [object, mapM_named _ fun _ _ => rfl]

mutual

/-- A plain value is read back from its text with as much fuel as it has characters. -/
theorem value_emit (fuel : Nat) (rest : List Char) (hrest : Follows rest) :
    ∀ json : Json, json.Plain → (emit json rest).length ≤ fuel + rest.length →
      value (fuel + 1) (emit json rest) = some (json, rest)
  | .null, _, _ => by simp [emit, value]
  | .bool true, _, _ => by simp [emit, value]
  | .bool false, _, _ => by simp [emit, value]
  | .nat n, _, _ => by rw [emit, value_toDigits fuel n rest hrest]
  | .str s, _, _ => by simp [emit, value]
  | .arr [], _, _ => by simp [emit, value, skip_cons, isSpace]
  | .arr (item :: more), hplain, hfuel => by
    have htail := length_lt_emitItems rest more
    have hitem := length_le_emit (emitItems more rest) item
    simp only [emit, List.length_cons] at hfuel
    obtain ⟨fuel, rfl⟩ := Nat.exists_eq_succ_of_ne_zero (show fuel ≠ 0 by omega)
    have hread := items_emit fuel [] rest hrest item more hplain (by omega)
    obtain ⟨c, tail, heq, _, hbracket⟩ := emit_head item (emitItems more rest) hplain.1
    rw [emit, value, skip_emit item _ hplain.1]
    rw [heq] at hread ⊢
    simp [hbracket, hread]
  | .obj [], _, _ => by simp [emit, value, skip_cons, isSpace]
  | .obj ((name, found) :: more), hplain, hfuel => by
    have htail := length_lt_emitMembers rest more
    have hvalue := length_le_emit (emitMembers more rest) found
    have hname := Quoted.length_lt_emit name.toList (':' :: emit found (emitMembers more rest))
    simp only [emit, List.length_cons] at hfuel hname
    obtain ⟨fuel, rfl⟩ := Nat.exists_eq_succ_of_ne_zero (show fuel ≠ 0 by omega)
    have hread := members_emit fuel [] rest hrest name found more hplain (by
      simp only [List.length_cons]
      omega)
    rw [emit, value, skip_cons _ (by decide)]
    have hnamed := object_named
      ('\x7b' :: '"' :: Quoted.emit name.toList (':' :: emit found (emitMembers more rest)))
      ((name, found) :: more) rest
    simp only [List.map_cons] at hnamed
    simp [hread, hnamed]

theorem items_emit (fuel : Nat) (done : List Json) (rest : List Char) (hrest : Follows rest)
    (item : Json) :
    ∀ more : List Json, PlainItems (item :: more) →
      (emit item (emitItems more rest)).length ≤ fuel + rest.length →
      items (fuel + 1) done (emit item (emitItems more rest)) =
        some (done.reverse ++ item :: more, rest) := by
  intro more hplain hfuel
  have htail := length_lt_emitItems rest more
  have hitem := length_le_emit (emitItems more rest) item
  obtain ⟨fuel, rfl⟩ := Nat.exists_eq_succ_of_ne_zero (show fuel ≠ 0 by omega)
  have hread := value_emit fuel (emitItems more rest) (follows_emitItems more rest) item hplain.1
    (by omega)
  rw [items, hread]
  cases more with
  | nil => simp [emitItems, skip_cons, isSpace]
  | cons next more =>
    have hlength : (emitItems (next :: more) rest).length =
        (emit next (emitItems more rest)).length + 1 := by
      rw [emitItems, List.length_cons]
    have hmore := items_emit fuel (item :: done) rest hrest next more hplain.2 (by omega)
    simp [emitItems, skip_cons, isSpace, skip_emit next _ hplain.2.1, hmore]

theorem members_emit (fuel : Nat) (done : List (Option String × Json)) (rest : List Char)
    (hrest : Follows rest) (name : String) (found : Json) :
    ∀ more : List (String × Json), PlainMembers ((name, found) :: more) →
      ('"' :: Quoted.emit name.toList (':' :: emit found (emitMembers more rest))).length ≤
        fuel + rest.length →
      members (fuel + 1) done
          ('"' :: Quoted.emit name.toList (':' :: emit found (emitMembers more rest))) =
        some (done.reverse ++ ((name, found) :: more).map (fun m => (some m.1, m.2)), rest) := by
  intro more hplain hfuel
  have htail := length_lt_emitMembers rest more
  have hvalue := length_le_emit (emitMembers more rest) found
  have hname := Quoted.length_lt_emit name.toList (':' :: emit found (emitMembers more rest))
  simp only [List.length_cons] at hfuel hname
  obtain ⟨fuel, rfl⟩ := Nat.exists_eq_succ_of_ne_zero (show fuel ≠ 0 by omega)
  have hread := value_emit fuel (emitMembers more rest) (follows_emitMembers more rest) found
    hplain.1 (by omega)
  rw [members]
  simp only [Quoted.read_emit, skip_cons _ (show isSpace ':' = false by decide),
    skip_emit found _ hplain.1, hread]
  cases more with
  | nil => simp [emitMembers, skip_cons, isSpace]
  | cons member more =>
    have hlength : (emitMembers (member :: more) rest).length =
        ('"' :: Quoted.emit member.1.toList
          (':' :: emit member.2 (emitMembers more rest))).length + 1 := by
      rw [emitMembers, List.length_cons]
    have hmore := members_emit fuel ((some name, found) :: done) rest hrest member.1 member.2
      more hplain.2 (by omega)
    simp [emitMembers, skip_cons, isSpace, hmore]

end

/-- A plain value is read back from its compact text. -/
theorem parse?_print (json : Json) (h : json.Plain) : parse? json.print = some json := by
  have hread := value_emit (emit json []).length [] (by simp [Follows]) json h (by simp)
  simp only [parse?, print, String.toList_ofList, skip_emit json [] h, hread]
  simp [skip]

end Lightpay.Json
