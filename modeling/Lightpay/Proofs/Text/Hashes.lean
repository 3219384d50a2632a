import Lightpay.Proofs.Result
import Lightpay.Proofs.Text.Json
import Lightpay.Proofs.Text.Record

/-! Texts that name hashes and preimages: sixty-four hexadecimal digits, bare or as a JSON string.
Both ways of reading take the digits in either case, and both ways of writing give them back in
lower case. -/

namespace Lightpay

namespace Hex

def IsDigit (c : Char) : Prop :=
  ('0' ≤ c ∧ c ≤ '9') ∨ ('a' ≤ c ∧ c ≤ 'f') ∨ ('A' ≤ c ∧ c ≤ 'F')

instance (c : Char) : Decidable (IsDigit c) := inferInstanceAs (Decidable (_ ∨ _))

variable {c : Char} {cs : List Char} {bytes : Bytes} {position size n : Nat} {text : String}

theorem isDigit_ofNat : ∀ code < 128, IsDigit (Char.ofNat code) →
    ∃ n < 16, value? (Char.ofNat code) = some n ∧ digit n = (Char.ofNat code).toLower := by
  decide

theorem toNat_lt_of_isDigit (h : IsDigit c) : c.toNat < 128 := by
  rcases h with ⟨_, hlast⟩ | ⟨_, hlast⟩ | ⟨_, hlast⟩ <;>
    exact Nat.lt_of_le_of_lt (Char.le_def.1 hlast) (by decide)

theorem exists_value? (h : IsDigit c) : ∃ n < 16, value? c = some n ∧ digit n = c.toLower := by
  have hascii := isDigit_ofNat c.toNat (toNat_lt_of_isDigit h)
  rw [Char.ofNat_toNat] at hascii
  exact hascii h

theorem value?_eq_none_iff : value? c = none ↔ ¬ IsDigit c := by
  rw [value?, IsDigit]
  split <;> [skip; split <;> [skip; split]] <;> simp [*]

theorem value_eq_ok_iff :
    value position c = .ok n ↔ IsDigit c ∧ n < 16 ∧ digit n = c.toLower := by
  rw [value]
  by_cases hdigit : IsDigit c
  · obtain ⟨m, hm, hvalue, hlower⟩ := exists_value? hdigit
    simp only [hvalue, Except.ok.injEq, hdigit, true_and]
    constructor
    · rintro rfl
      exact ⟨hm, hlower⟩
    · rintro ⟨hn, hsame⟩
      -- Digits in lower case are told apart by reading them.
      have hback := congrArg value? (hlower.trans hsame.symm)
      rw [value?_digit m hm, value?_digit n hn] at hback
      exact Option.some.inj hback
  · simp [value?_eq_none_iff.2 hdigit, hdigit]

theorem digits_join {m n : Nat} (hm : m < 16) (hn : n < 16) (bytes : Bytes) :
    digits (UInt8.ofNat (16 * m + n) :: bytes) = digit m :: digit n :: digits bytes := by
  have hbyte : (UInt8.ofNat (16 * m + n)).toNat = 16 * m + n := by
    rw [UInt8.toNat_ofNat']
    omega
  have hquotient : (16 * m + n) / 16 = m := by omega
  have hremainder : (16 * m + n) % 16 = n := by omega
  rw [digits, hbyte, hquotient, hremainder]

theorem exists_digits (hlength : cs.length = 2 * size) (hall : ∀ c ∈ cs, IsDigit c) :
    ∃ bytes, digits bytes = cs.map Char.toLower ∧ bytes.length = size := by
  induction size generalizing cs with
  | zero =>
    rw [List.length_eq_zero_iff.1 hlength]
    exact ⟨[], rfl, rfl⟩
  | succ size ih =>
    obtain ⟨high, tail, rfl⟩ := List.exists_cons_of_length_eq_add_one hlength
    obtain ⟨low, rest, rfl⟩ := List.exists_cons_of_length_eq_add_one (Nat.succ.inj hlength)
    obtain ⟨hhigh, hall⟩ := List.forall_mem_cons.1 hall
    obtain ⟨hlow, hall⟩ := List.forall_mem_cons.1 hall
    obtain ⟨m, hm, _, hhighLower⟩ := exists_value? hhigh
    obtain ⟨n, hn, _, hlowLower⟩ := exists_value? hlow
    obtain ⟨bytes, hdigits, hbytes⟩ := ih (Nat.succ.inj (Nat.succ.inj hlength)) hall
    refine ⟨UInt8.ofNat (16 * m + n) :: bytes, ?_, congrArg Nat.succ hbytes⟩
    rw [digits_join hm hn, hhighLower, hlowLower, hdigits]
    rfl

theorem digits_of_pairs (h : pairs position cs = .ok bytes) :
    (∀ c ∈ cs, IsDigit c) ∧ digits bytes = cs.map Char.toLower := by
  fun_induction pairs position cs generalizing bytes with
  | case1 =>
    cases h
    exact ⟨nofun, rfl⟩
  | case2 position c =>
    obtain ⟨_, _, h⟩ := bind_eq_ok_iff.1 h
    cases h
  | case3 position high low rest ih =>
    obtain ⟨m, hm, h⟩ := bind_eq_ok_iff.1 h
    obtain ⟨n, hn, h⟩ := bind_eq_ok_iff.1 h
    obtain ⟨more, hmore, h⟩ := bind_eq_ok_iff.1 h
    cases h
    obtain ⟨hhigh, hm, hhighLower⟩ := value_eq_ok_iff.1 hm
    obtain ⟨hlow, hn, hlowLower⟩ := value_eq_ok_iff.1 hn
    obtain ⟨hrest, hdigits⟩ := ih hmore
    refine ⟨List.forall_mem_cons.2 ⟨hhigh, List.forall_mem_cons.2 ⟨hlow, hrest⟩⟩, ?_⟩
    rw [digits_join hm hn, hhighLower, hlowLower, hdigits]
    rfl

theorem pairs_of_digits (hall : ∀ c ∈ cs, IsDigit c) (h : digits bytes = cs.map Char.toLower) :
    pairs position cs = .ok bytes := by
  induction bytes generalizing position cs with
  | nil =>
    rw [List.map_eq_nil_iff.1 h.symm]
    rfl
  | cons byte bytes ih =>
    obtain ⟨high, tail, rfl, hhigh, htail⟩ := List.map_eq_cons_iff.1 h.symm
    obtain ⟨low, rest, rfl, hlow, hrest⟩ := List.map_eq_cons_iff.1 htail
    obtain ⟨hhighDigit, hall⟩ := List.forall_mem_cons.1 hall
    obtain ⟨hlowDigit, hall⟩ := List.forall_mem_cons.1 hall
    have hbyte : byte.toNat < 256 := byte.toNat_lt
    have hm : value position high = .ok (byte.toNat / 16) :=
      value_eq_ok_iff.2 ⟨hhighDigit, by omega, hhigh.symm⟩
    have hn : value (position + 1) low = .ok (byte.toNat % 16) :=
      value_eq_ok_iff.2 ⟨hlowDigit, by omega, hlow.symm⟩
    have hjoin : UInt8.ofNat (16 * (byte.toNat / 16) + byte.toNat % 16) = byte := by
      rw [Nat.div_add_mod]
      exact UInt8.ofNat_toNat
    rw [pairs, hm, hn]
    simp only [bind, Except.bind, ih hall hrest.symm, hjoin]

theorem pairs_eq_ok_iff : pairs position cs = .ok bytes ↔
    (∀ c ∈ cs, IsDigit c) ∧ digits bytes = cs.map Char.toLower :=
  ⟨digits_of_pairs, fun h => pairs_of_digits h.1 h.2⟩

theorem utf8ByteSize_of_digits (h : ∀ c ∈ cs, IsDigit c) :
    (String.ofList cs).utf8ByteSize = cs.length := by
  induction cs with
  | nil => rfl
  | cons c cs ih =>
    obtain ⟨hdigit, hrest⟩ := List.forall_mem_cons.1 h
    have hsize : c.utf8Size = 1 :=
      Char.utf8Size_eq_one_iff.2 (Nat.le_of_lt_succ (toNat_lt_of_isDigit hdigit))
    rw [String.ofList_cons, String.utf8ByteSize_append, String.utf8ByteSize_singleton, hsize,
      ih hrest, List.length_cons, Nat.add_comm]

theorem decodeExact_eq_ok_iff : decodeExact size text = .ok bytes ↔
    text.length = 2 * size ∧ (∀ c ∈ text.toList, IsDigit c) ∧
      digits bytes = text.toList.map Char.toLower := by
  have hsize : (∀ c ∈ text.toList, IsDigit c) → text.utf8ByteSize = text.length := by
    intro hall
    rw [← String.length_toList, ← utf8ByteSize_of_digits hall, String.ofList_toList]
  rw [decodeExact]
  constructor
  · intro h
    split at h
    · cases h
    split at h
    · cases h
    · rename_i hwidth
      obtain ⟨hall, hdigits⟩ := pairs_eq_ok_iff.1 h
      exact ⟨(hsize hall).symm.trans (not_not.1 hwidth), hall, hdigits⟩
  · rintro ⟨hlength, hall, hdigits⟩
    rw [hsize hall, hlength, if_neg (by omega), if_neg (not_not.2 rfl)]
    exact pairs_of_digits hall hdigits

theorem escape_digit : ∀ n < 16, Json.Quoted.escape (digit n) = [digit n] := by decide

theorem emit_digits (bytes : Bytes) (rest : List Char) :
    Json.Quoted.emit (digits bytes) rest = digits bytes ++ '"' :: rest := by
  induction bytes with
  | nil => rfl
  | cons byte bytes ih =>
    have hbyte : byte.toNat < 256 := byte.toNat_lt
    rw [digits, Json.Quoted.emit, Json.Quoted.emit, escape_digit _ (by omega),
      escape_digit _ (by omega), ih]
    rfl

end Hex

theorem toList_toLower (text : String) :
    text.toLower.toList = text.toList.map Char.toLower := String.toList_map

/-- Sixty-four digits of either case. -/
def Bytes32.Spelled (text : String) : Prop :=
  text.length = 64 ∧ ∀ c ∈ text.toList, Hex.IsDigit c

namespace Bytes32

variable {text : String} {value : Bytes32}

theorem parse_eq_ok_iff : parse text = .ok value ↔ Spelled text ∧ value.text = text.toLower := by
  have htext : value.text = text.toLower ↔
      Hex.digits value.bytes = text.toList.map Char.toLower := by
    rw [← String.toList_inj, Bytes32.text, Hex.encode, String.toList_ofList, toList_toLower]
  have hexact : Hex.decodeExact 32 text = .ok value.bytes ↔
      Spelled text ∧ value.text = text.toLower := by
    rw [Hex.decodeExact_eq_ok_iff, htext, Spelled, and_assoc]
  rw [← hexact, parse]
  cases hread : Hex.decodeExact 32 text with
  | error e => simp
  | ok bytes =>
    by_cases hlength : bytes.length = 32
    · cases value
      simp [hlength]
    · have hne : bytes ≠ value.bytes := fun heq => hlength (heq ▸ value.length_bytes)
      simp [hlength, hne]

theorem exists_parse_iff : (∃ value, parse text = .ok value) ↔ Spelled text := by
  constructor
  · rintro ⟨value, hparse⟩
    exact (parse_eq_ok_iff.1 hparse).1
  · intro hspelled
    have hcount : text.toList.length = 2 * 32 := String.length_toList.trans hspelled.1
    obtain ⟨bytes, hdigits, hlength⟩ := Hex.exists_digits hcount hspelled.2
    refine ⟨⟨bytes, hlength⟩, parse_eq_ok_iff.2 ⟨hspelled, ?_⟩⟩
    rw [← String.toList_inj, Bytes32.text, Hex.encode, String.toList_ofList, hdigits,
      toList_toLower]

theorem ofJson?_eq_some_iff {json : Json} :
    ofJson? json = some value ↔ ∃ text, json = .str text ∧ parse text = .ok value := by
  cases json with
  | str text =>
    rw [ofJson?, Json.str?, Option.bind_some]
    cases hparse : parse text <;> simp [Except.toOption, hparse]
  | _ => simp [ofJson?, Json.str?]

theorem print_toJson (value : Bytes32) : value.toJson.print = "\"" ++ value.text ++ "\"" := by
  have hemit := Hex.emit_digits value.bytes []
  rw [← String.toList_inj, toJson, Json.print, Json.emit, text, Hex.encode, String.toList_ofList,
    String.toList_ofList, hemit]
  simp

end Bytes32

/-- Values whose names are sixty-four digits, bare and as JSON strings. -/
structure NamedByDigits {α : Type} (parse : String → Except Hex.Error α) (text : α → String)
    (ofJson? : Json → Option α) (toJson : α → Json) : Prop where
  accepted : ∀ spelling, (∃ a, parse spelling = .ok a) ↔
    spelling.length = 64 ∧ ∀ c ∈ spelling.toList, Hex.IsDigit c
  named : ∀ spelling a, parse spelling = .ok a → text a = spelling.toLower
  ofJson?_eq_some_iff : ∀ json a,
    ofJson? json = some a ↔ ∃ spelling, json = .str spelling ∧ parse spelling = .ok a
  document : ∀ spelling a,
    (Json.parse? (Json.str spelling).print).bind ofJson? = some a ↔ parse spelling = .ok a
  print_toJson : ∀ a, (toJson a).print = "\"" ++ text a ++ "\""
  parse_text : ∀ a, parse (text a) = .ok a
  injective : Function.Injective text

theorem Bytes32.namedByDigits : NamedByDigits parse text ofJson? toJson where
  accepted spelling := exists_parse_iff
  named spelling value hparse := (parse_eq_ok_iff.1 hparse).2
  ofJson?_eq_some_iff json value := ofJson?_eq_some_iff
  document spelling value := by
    have hplain : (Json.str spelling).Plain := by simp [Json.Plain]
    rw [Json.parse?_print _ hplain, Option.bind_some, ofJson?_eq_some_iff]
    simp
  print_toJson := print_toJson
  parse_text := parse_text
  injective value other h := by
    have hparse := parse_text value
    rw [h, parse_text] at hparse
    exact (Except.ok.inj hparse).symm

/-- A type that only wraps the values has the same names. -/
theorem NamedByDigits.wrapped {α β : Type} {parse : String → Except Hex.Error α}
    {text : α → String} {ofJson? : Json → Option α} {toJson : α → Json}
    (h : NamedByDigits parse text ofJson? toJson) {wrap : α → β} {value : β → α}
    (hwrap : ∀ b, wrap (value b) = b) (hvalue : ∀ a, value (wrap a) = a) :
    NamedByDigits (fun spelling => (parse spelling).map wrap) (fun b => text (value b))
      (fun json => (ofJson? json).map wrap) (fun b => toJson (value b)) := by
  have hwrapped : ∀ a b, wrap a = b ↔ a = value b := by
    intro a b
    constructor
    · rintro rfl
      exact (hvalue a).symm
    · rintro rfl
      exact hwrap b
  have hparse : ∀ spelling b,
      (parse spelling).map wrap = .ok b ↔ parse spelling = .ok (value b) := by
    intro spelling b
    simp only [map_eq_ok_iff, hwrapped, exists_eq_right]
  have hread : ∀ (found : Option α) b, found.map wrap = some b ↔ found = some (value b) := by
    intro found b
    simp only [Option.map_eq_some_iff, hwrapped, exists_eq_right]
  constructor
  case accepted =>
    intro spelling
    rw [← h.accepted]
    simp only [hparse]
    exact ⟨fun ⟨b, hb⟩ => ⟨_, hb⟩, fun ⟨a, ha⟩ => ⟨wrap a, (hvalue a).symm ▸ ha⟩⟩
  case named => exact fun spelling b hb => h.named spelling _ ((hparse spelling b).1 hb)
  case ofJson?_eq_some_iff =>
    intro json b
    simp only [hread, hparse]
    exact h.ofJson?_eq_some_iff json _
  case document =>
    intro spelling b
    rw [hparse, ← h.document]
    cases Json.parse? (Json.str spelling).print with
    | none => exact iff_of_false nofun nofun
    | some json => exact hread _ b
  case print_toJson => exact fun b => h.print_toJson _
  case parse_text => exact fun b => (hparse _ b).2 (h.parse_text _)
  case injective =>
    intro left right hsame
    rw [← hwrap left, h.injective hsame, hwrap]

/-- Hashes and preimages are named by sixty-four digits: both ways of reading take the same texts
for the same values, whatever the case, both ways of writing give them in lower case, and what is
written is read back, so no two values share a name. -/
theorem hashes_named_by_digits :
    NamedByDigits PaymentHash.parse PaymentHash.text PaymentHash.ofJson? PaymentHash.toJson ∧
      NamedByDigits Preimage.parse Preimage.text Preimage.ofJson? Preimage.toJson :=
  ⟨Bytes32.namedByDigits.wrapped (fun _ => rfl) fun _ => rfl,
    Bytes32.namedByDigits.wrapped (fun _ => rfl) fun _ => rfl⟩

end Lightpay
