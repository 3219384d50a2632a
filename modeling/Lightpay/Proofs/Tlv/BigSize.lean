import Lightpay.Proofs.Tlv.Digits
import Lightpay.Tlv.BigSize

/-! Every number has one shortest form. Reading accepts that form and no other, and what it
leaves is what stands behind the form. It fails on forms that break off and on those that are too
long. -/

namespace Lightpay.Tlv.BigSize

/-- A number is written as a byte below the markers, or as a marker and the digits that the
marker announces. -/
inductive Form (n : UInt64) : Bytes → Prop
  | short {byte : UInt8} (hbelow : byte.toNat < 0xfd) (hvalue : byte.toNat = n.toNat) :
    Form n [byte]
  | long {marker : UInt8} {digits : Bytes}
      (hwidth : (marker, digits.length) ∈ [((0xfd : UInt8), 2), (0xfe, 4), (0xff, 8)])
      (hvalue : Bytes.toNat digits = n.toNat) : Form n (marker :: digits)

def Shortest (n : UInt64) (bytes : Bytes) : Prop :=
  Form n bytes ∧ ∀ other, Form n other → bytes.length ≤ other.length

/-- A whole form of a number that has a shorter one. -/
def Overlong (bytes : Bytes) : Prop := ∃ n, Form n bytes ∧ ¬ Shortest n bytes

/-- A form that breaks off. -/
def Cut (bytes : Bytes) : Prop := ∃ n form, Form n form ∧ bytes <+: form ∧ bytes ≠ form

/-- How a byte string begins, as far as a reader of one number goes. -/
inductive Front : Bytes → Prop
  | nothing : Front []
  | short {first : UInt8} {rest : Bytes} (hbelow : first.toNat < 0xfd) : Front (first :: rest)
  | cut {marker : UInt8} {width least : Nat} {rest : Bytes}
      (hform : form? marker = some (width, least)) (hshort : rest.length < width) :
    Front (marker :: rest)
  | whole {marker : UInt8} {width least : Nat} {digits rest : Bytes}
      (hform : form? marker = some (width, least)) (hwidth : digits.length = width) :
    Front (marker :: (digits ++ rest))

variable {n : UInt64} {first marker : UInt8} {width least : Nat} {bytes digits rest : Bytes}

theorem form?_eq_none_iff : form? first = none ↔ first.toNat < 0xfd := by
  have hmarkers : ∀ marker : UInt8, first = marker ↔ first.toNat = marker.toNat :=
    fun marker => UInt8.toNat_inj.symm
  have hbyte : first.toNat < 256 := first.toNat_lt
  simp only [form?, hmarkers, UInt8.reduceToNat]
  split <;> [skip; split <;> [skip; split]] <;> simp <;> omega

theorem form?_eq_some_iff : form? marker = some (width, least) ↔
    (marker, width, least) ∈ [((0xfd : UInt8), 2, 0xfd), (0xfe, 4, 0x10000),
      (0xff, 8, 0x100000000)] := by
  simp only [form?, List.mem_cons, List.not_mem_nil, or_false, Prod.mk.injEq]
  split <;> [skip; split <;> [skip; split]] <;> simp_all [eq_comm]

theorem mem_widths_of_form? (h : form? marker = some (width, least)) :
    (marker, width) ∈ [((0xfd : UInt8), 2), (0xfe, 4), (0xff, 8)] := by
  simp only [form?_eq_some_iff, List.mem_cons, Prod.mk.injEq, List.not_mem_nil, or_false] at h
  rcases h with ⟨rfl, rfl, _⟩ | ⟨rfl, rfl, _⟩ | ⟨rfl, rfl, _⟩ <;> decide

theorem form?_of_mem_widths
    (h : (marker, width) ∈ [((0xfd : UInt8), 2), (0xfe, 4), (0xff, 8)]) :
    ∃ least, form? marker = some (width, least) := by
  simp only [List.mem_cons, Prod.mk.injEq, List.not_mem_nil, or_false] at h
  rcases h with ⟨rfl, rfl⟩ | ⟨rfl, rfl⟩ | ⟨rfl, rfl⟩ <;> exact ⟨_, rfl⟩

theorem front_cases (bytes : Bytes) : Front bytes := by
  cases bytes with
  | nil => exact .nothing
  | cons first tail =>
    cases hform : form? first with
    | none => exact .short (form?_eq_none_iff.1 hform)
    | some form =>
      obtain ⟨width, least⟩ := form
      by_cases hshort : tail.length < width
      · exact .cut hform hshort
      · rw [← List.take_append_drop width tail]
        exact .whole hform (List.length_take_of_le (Nat.not_lt.1 hshort))

theorem toNat_digits_lt (hform : form? marker = some (width, least))
    (hwidth : digits.length = width) : Bytes.toNat digits < UInt64.size := by
  have hlt := Bytes.toNat_lt digits
  have hfits : digits.length ≤ 8 := by
    simp only [form?_eq_some_iff, List.mem_cons, Prod.mk.injEq, List.not_mem_nil, or_false] at hform
    omega
  exact Nat.lt_of_lt_of_le hlt (Nat.pow_le_pow_right (by decide) hfits)

theorem encode_short (h : first.toNat < 0xfd) : encode first.toUInt64 = [first] := by
  have hvalue : first.toUInt64.toNat = first.toNat := UInt8.toNat_toUInt64 first
  rw [encode, if_pos (by omega)]
  simp

theorem encode_digits (hform : form? marker = some (width, least)) (hwidth : digits.length = width)
    (hleast : least ≤ Bytes.toNat digits) :
    encode (UInt64.ofNat (Bytes.toNat digits)) = marker :: digits := by
  have hlt := Bytes.toNat_lt digits
  have hdigits := Bytes.ofNat_toNat digits
  rw [hwidth] at hlt hdigits
  have hvalue : (UInt64.ofNat (Bytes.toNat digits)).toNat = Bytes.toNat digits :=
    UInt64.toNat_ofNat_of_lt' (toNat_digits_lt hform hwidth)
  rw [form?_eq_some_iff] at hform
  rw [encode, hvalue]
  simp only [List.mem_cons, Prod.mk.injEq, List.not_mem_nil, or_false] at hform
  rcases hform with ⟨rfl, rfl, rfl⟩ | ⟨rfl, rfl, rfl⟩ | ⟨rfl, rfl, rfl⟩
  · rw [if_neg (by omega), if_pos (by omega), hdigits]
  · rw [if_neg (by omega), if_neg (by omega), if_pos (by omega), hdigits]
  · rw [if_neg (by omega), if_neg (by omega), if_neg (by omega), hdigits]

theorem encode_cases (n : UInt64) :
    (n.toNat < 0xfd ∧ encode n = [n.toUInt8]) ∨
      ∃ marker width least, form? marker = some (width, least) ∧ least ≤ n.toNat ∧
        n.toNat < 256 ^ width ∧ encode n = marker :: Bytes.ofNat width n.toNat := by
  have hn : n.toNat < 2 ^ 64 := n.toNat_lt
  rw [encode]
  split
  · exact .inl ⟨‹_›, rfl⟩
  split
  · exact .inr ⟨0xfd, 2, 0xfd, rfl, by omega, by omega, rfl⟩
  split
  · exact .inr ⟨0xfe, 4, 0x10000, rfl, by omega, by omega, rfl⟩
  · exact .inr ⟨0xff, 8, 0x100000000, rfl, by omega, by omega, rfl⟩

theorem decode_short (h : first.toNat < 0xfd) (rest : Bytes) :
    decode (first :: rest) = (.ok first.toUInt64, rest) := by
  rw [decode, form?_eq_none_iff.2 h]

theorem decode_truncated (hform : form? marker = some (width, least)) (h : bytes.length < width) :
    decode (marker :: bytes) = (.error .unexpectedEnd, bytes) := by
  have htake : (bytes.take width).length < width := by
    rw [List.length_take]
    omega
  simp only [decode, hform, htake, ↓reduceIte]

theorem decode_digits (hform : form? marker = some (width, least)) (hwidth : digits.length = width)
    (rest : Bytes) :
    decode (marker :: (digits ++ rest)) =
      if Bytes.toNat digits < least then (.error .nonCanonical, rest)
      else (.ok (UInt64.ofNat (Bytes.toNat digits)), rest) := by
  simp only [decode, hform, List.take_left' hwidth, List.drop_left' hwidth, hwidth,
    Nat.lt_irrefl, ↓reduceIte]

theorem read_eq_ok_iff_decode : read bytes = .ok (n, rest) ↔ decode bytes = (.ok n, rest) := by
  rw [read]
  rcases decode bytes with ⟨result, left⟩
  cases result <;> simp

theorem read_encode_append (n : UInt64) (rest : Bytes) :
    read (encode n ++ rest) = .ok (n, rest) := by
  rw [read_eq_ok_iff_decode]
  rcases encode_cases n with ⟨hn, hencode⟩ | ⟨marker, width, least, hform, hleast, hlt, hencode⟩
  · have hbyte : n.toUInt8.toNat = n.toNat := by
      rw [UInt64.toNat_toUInt8]
      omega
    have hback : n.toUInt8.toUInt64 = n := by
      apply UInt64.toNat.inj
      rw [UInt8.toNat_toUInt64, hbyte]
    rw [hencode, List.singleton_append, decode_short (by omega), hback]
  · have hwidth := Bytes.length_ofNat width n.toNat
    rw [hencode, List.cons_append, decode_digits hform hwidth, Bytes.toNat_ofNat _ _ hlt,
      if_neg (by omega), UInt64.ofNat_toNat]

theorem eq_encode_append_of_read (h : read bytes = .ok (n, rest)) : bytes = encode n ++ rest := by
  rw [read_eq_ok_iff_decode] at h
  cases front_cases bytes with
  | nothing => cases h
  | short hbelow =>
    rw [decode_short hbelow] at h
    cases h
    rw [encode_short hbelow, List.singleton_append]
  | cut hform hshort =>
    rw [decode_truncated hform hshort] at h
    cases h
  | whole hform hwidth =>
    rw [decode_digits hform hwidth] at h
    split at h
    · cases h
    · rename_i hleast
      cases h
      rw [encode_digits hform hwidth (by omega), List.cons_append]

/-- What is read is what is written, and nothing else is read. -/
theorem read_eq_ok_iff : read bytes = .ok (n, rest) ↔ bytes = encode n ++ rest := by
  constructor
  · exact eq_encode_append_of_read
  · rintro rfl
    exact read_encode_append n rest

theorem form_encode (n : UInt64) : Form n (encode n) := by
  rcases encode_cases n with ⟨hshort, hencode⟩ | ⟨marker, width, least, hform, _, hlt, hencode⟩
  · have hbyte : n.toUInt8.toNat = n.toNat := by
      rw [UInt64.toNat_toUInt8]
      omega
    rw [hencode]
    exact .short (by omega) hbyte
  · rw [hencode]
    refine .long ?_ (Bytes.toNat_ofNat _ _ hlt)
    rw [Bytes.length_ofNat]
    exact mem_widths_of_form? hform

theorem length_encode_le (hform : form? marker = some (width, least)) (h : n.toNat < least) :
    (encode n).length ≤ width := by
  simp only [form?_eq_some_iff, List.mem_cons, Prod.mk.injEq, List.not_mem_nil, or_false] at hform
  rw [encode]
  split
  · rw [List.length_singleton]
    omega
  split
  · rw [List.length_cons, Bytes.length_ofNat]
    omega
  split
  · rw [List.length_cons, Bytes.length_ofNat]
    omega
  · omega

theorem eq_encode_of_form (h : Form n bytes) (hlength : bytes.length ≤ (encode n).length) :
    bytes = encode n := by
  cases h with
  | @short byte hbelow hvalue =>
    have hn : byte.toUInt64 = n := by
      apply UInt64.toNat.inj
      rw [UInt8.toNat_toUInt64, hvalue]
    rw [← hn, encode_short hbelow]
  | @long marker digits hwidth hvalue =>
    obtain ⟨least, hform⟩ := form?_of_mem_widths hwidth
    by_cases hleast : least ≤ Bytes.toNat digits
    · have hencode := encode_digits hform rfl hleast
      rw [hvalue, UInt64.ofNat_toNat] at hencode
      exact hencode.symm
    · -- The number has a shorter form than the one with this marker.
      have hshorter := length_encode_le hform (n := n) (by omega)
      rw [List.length_cons] at hlength
      omega

theorem shortest_iff : Shortest n bytes ↔ bytes = encode n := by
  constructor
  · rintro ⟨hform, hleast⟩
    exact eq_encode_of_form hform (hleast _ (form_encode n))
  · rintro rfl
    refine ⟨form_encode n, fun other hother => ?_⟩
    rcases Nat.le_total (encode n).length other.length with hlonger | hshorter
    · exact hlonger
    · exact Nat.le_of_eq (congrArg List.length (eq_encode_of_form hother hshorter)).symm

theorem form_digits (hform : form? marker = some (width, least)) (hwidth : digits.length = width) :
    Form (UInt64.ofNat (Bytes.toNat digits)) (marker :: digits) :=
  .long (hwidth ▸ mem_widths_of_form? hform)
    (UInt64.toNat_ofNat_of_lt' (toNat_digits_lt hform hwidth)).symm

theorem overlong_iff : Overlong bytes ↔ ∃ marker digits least, bytes = marker :: digits ∧
    form? marker = some (digits.length, least) ∧ Bytes.toNat digits < least := by
  constructor
  · rintro ⟨n, hform, hlonger⟩
    rw [shortest_iff] at hlonger
    cases hform with
    | @short byte hbelow hvalue =>
      have hn : byte.toUInt64 = n := UInt64.toNat.inj ((UInt8.toNat_toUInt64 byte).trans hvalue)
      exact absurd (hn ▸ (encode_short hbelow).symm) hlonger
    | @long marker digits hwidth hvalue =>
      obtain ⟨least, hform⟩ := form?_of_mem_widths hwidth
      refine ⟨marker, digits, least, rfl, hform, Nat.lt_of_not_le fun hleast => hlonger ?_⟩
      rw [← encode_digits hform rfl hleast, hvalue, UInt64.ofNat_toNat]
  · rintro ⟨marker, digits, least, rfl, hform, hless⟩
    have hwhole := form_digits hform rfl
    have hvalue := UInt64.toNat_ofNat_of_lt' (toNat_digits_lt hform rfl)
    refine ⟨_, hwhole, fun hshortest => ?_⟩
    have hshorter := length_encode_le hform (hvalue ▸ hless)
    rw [← shortest_iff.1 hshortest, List.length_cons] at hshorter
    omega

theorem cut_iff : Cut bytes ↔ bytes = [] ∨ ∃ marker digits width least, bytes = marker :: digits ∧
    form? marker = some (width, least) ∧ digits.length < width := by
  constructor
  · rintro ⟨n, form, hform, hleads, hne⟩
    cases bytes with
    | nil => exact .inl rfl
    | cons first tail =>
      have hlength : (first :: tail).length < form.length :=
        Nat.lt_of_le_of_ne hleads.length_le fun heq => hne (hleads.eq_of_length heq)
      cases hform with
      | short => simp at hlength
      | @long marker digits hwidth =>
        obtain ⟨rfl, _⟩ := List.cons_prefix_cons.1 hleads
        obtain ⟨least, hform⟩ := form?_of_mem_widths hwidth
        exact .inr ⟨first, tail, _, least, rfl, hform, Nat.lt_of_succ_lt_succ hlength⟩
  · rintro (rfl | ⟨marker, digits, width, least, rfl, hform, hshort⟩)
    · exact ⟨0, [0], .short (by decide) rfl, List.nil_prefix, nofun⟩
    · -- Any digits will do to complete the form.
      have hwidth : (digits ++ List.replicate (width - digits.length) 0).length = width := by
        rw [List.length_append, List.length_replicate]
        omega
      refine ⟨_, _, form_digits hform hwidth, ?_, fun heq => ?_⟩
      · exact List.cons_prefix_cons.2 ⟨rfl, List.prefix_append _ _⟩
      · rw [← (List.cons.inj heq).2] at hwidth
        omega

theorem read_eq_error_iff_decode {e : Error} :
    read bytes = .error e ↔ (decode bytes).1 = .error e := by
  rw [read]
  rcases decode bytes with ⟨result, left⟩
  cases result <;> simp

theorem read_of_cut (h : Cut bytes) : read bytes = .error .unexpectedEnd := by
  rw [read_eq_error_iff_decode]
  obtain rfl | ⟨marker, digits, width, least, rfl, hform, hshort⟩ := cut_iff.1 h
  · rfl
  · rw [decode_truncated hform hshort]

theorem read_of_overlong (h : Overlong bytes) (rest : Bytes) :
    read (bytes ++ rest) = .error .nonCanonical := by
  obtain ⟨marker, digits, least, rfl, hform, hless⟩ := overlong_iff.1 h
  rw [read_eq_error_iff_decode, List.cons_append, decode_digits hform rfl, if_pos hless]

/-- A number, a form that breaks off, or a form that is too long. -/
theorem read_cases (bytes : Bytes) : (∃ n rest, read bytes = .ok (n, rest)) ∨ Cut bytes ∨
    ∃ form rest, Overlong form ∧ bytes = form ++ rest := by
  cases front_cases bytes with
  | nothing => exact .inr (.inl (cut_iff.2 (.inl rfl)))
  | @short first rest hbelow =>
    exact .inl ⟨_, _, read_eq_ok_iff_decode.2 (decode_short hbelow rest)⟩
  | cut hform hshort =>
    exact .inr (.inl (cut_iff.2 (.inr ⟨_, _, _, _, rfl, hform, hshort⟩)))
  | @whole marker width least digits rest hform hwidth =>
    by_cases hless : Bytes.toNat digits < least
    · refine .inr (.inr ⟨marker :: digits, rest, ?_, rfl⟩)
      exact overlong_iff.2 ⟨_, _, least, rfl, hwidth.symm ▸ hform, hless⟩
    · refine .inl ⟨UInt64.ofNat (Bytes.toNat digits), rest, ?_⟩
      rw [read_eq_ok_iff, encode_digits hform hwidth (Nat.not_lt.1 hless), List.cons_append]

theorem read_eq_error_iff {e : Error} : read bytes = .error e ↔
    (Cut bytes ∧ e = .unexpectedEnd) ∨
      (∃ form rest, Overlong form ∧ bytes = form ++ rest) ∧ e = .nonCanonical := by
  constructor
  · intro h
    rcases read_cases bytes with ⟨n, rest, hok⟩ | hcut | ⟨form, rest, hoverlong, rfl⟩
    · cases hok.symm.trans h
    · cases (read_of_cut hcut).symm.trans h
      exact .inl ⟨hcut, rfl⟩
    · cases (read_of_overlong hoverlong rest).symm.trans h
      exact .inr ⟨⟨form, rest, hoverlong, rfl⟩, rfl⟩
  · rintro (⟨hcut, rfl⟩ | ⟨⟨form, rest, hoverlong, rfl⟩, rfl⟩)
    · exact read_of_cut hcut
    · exact read_of_overlong hoverlong rest

end Lightpay.Tlv.BigSize
