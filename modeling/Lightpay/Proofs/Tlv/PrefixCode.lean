import Lightpay.Proofs.Tlv.BigSize

/-! Numbers one behind the other. The first byte tells how many follow, so no written form
begins another and a concatenation is read back number by number. An attempt that fails has used
up the first byte, or the whole form if it is there but too long. -/

namespace Lightpay.Tlv.BigSize

/-- How many bytes a first byte announces: two, four and eight for the markers. -/
def announced (first : UInt8) : Nat :=
  if first.toNat < 0xfd then 0 else 2 ^ (first.toNat - 0xfc)

/-- Why no number stands in front, and what is left after the attempt to read one. -/
inductive Fault : Bytes → Error → Bytes → Prop
  | nothing : Fault [] .unexpectedEnd []
  | cut {first : UInt8} {rest : Bytes} (hshort : rest.length < announced first) :
    Fault (first :: rest) .unexpectedEnd rest
  | overlong {first : UInt8} {digits rest shorter : Bytes} {n : UInt64}
      (hwidth : digits.length = announced first) (hvalue : Bytes.toNat digits = n.toNat)
      (hshorter : Form n shorter) (hlength : shorter.length < (first :: digits).length) :
    Fault (first :: (digits ++ rest)) .nonCanonical rest

variable {n m : UInt64} {first marker : UInt8} {width least : Nat} {bytes rest left : Bytes}
  {e : Error}

theorem announced_of_form? (hform : form? marker = some (width, least)) :
    announced marker = width := by
  simp only [form?_eq_some_iff, List.mem_cons, Prod.mk.injEq, List.not_mem_nil, or_false] at hform
  rcases hform with ⟨rfl, rfl, _⟩ | ⟨rfl, rfl, _⟩ | ⟨rfl, rfl, _⟩ <;> rfl

theorem form?_of_announced (h : 0 < announced first) :
    ∃ least, form? first = some (announced first, least) := by
  cases hform : form? first with
  | none =>
    rw [announced, if_pos (form?_eq_none_iff.1 hform)] at h
    exact absurd h (Nat.lt_irrefl 0)
  | some form =>
    obtain ⟨width, least⟩ := form
    exact ⟨least, by rw [announced_of_form? hform]⟩

theorem Form.length_pos {form : Bytes} (h : Form n form) : 0 < form.length := by
  cases h <;> exact Nat.succ_pos _

theorem fault_of_decode (h : decode bytes = (.error e, left)) : Fault bytes e left := by
  cases front_cases bytes with
  | nothing =>
    cases h
    exact .nothing
  | short hbelow =>
    rw [decode_short hbelow] at h
    cases h
  | cut hform hshort =>
    rw [decode_truncated hform hshort] at h
    cases h
    exact .cut ((announced_of_form? hform).symm ▸ hshort)
  | whole hform hwidth =>
    rw [decode_digits hform hwidth] at h
    split at h
    · rename_i hless
      cases h
      have hvalue := UInt64.toNat_ofNat_of_lt' (toNat_digits_lt hform hwidth)
      have hlength := length_encode_le hform (hvalue ▸ hless)
      refine .overlong (hwidth.trans (announced_of_form? hform).symm) hvalue.symm
        (form_encode _) ?_
      rw [List.length_cons, hwidth]
      exact Nat.lt_succ_of_le hlength
    · cases h

theorem decode_of_fault (h : Fault bytes e left) : decode bytes = (.error e, left) := by
  cases h with
  | nothing => rfl
  | cut hshort =>
    obtain ⟨least, hform⟩ := form?_of_announced (Nat.zero_lt_of_lt hshort)
    exact decode_truncated hform hshort
  | @overlong first digits _ shorter n hwidth hvalue hshorter hlength =>
    have hpos : 0 < announced first := by
      have hshorter := hshorter.length_pos
      rw [List.length_cons] at hlength
      omega
    obtain ⟨least, hform⟩ := form?_of_announced hpos
    rw [decode_digits hform hwidth, if_pos]
    -- Otherwise the whole form would be the written one, and none is shorter than that.
    refine Nat.lt_of_not_le fun hleast => ?_
    have hencode := encode_digits hform hwidth hleast
    rw [hvalue, UInt64.ofNat_toNat] at hencode
    have hshortest := (shortest_iff.2 hencode.symm).2 shorter hshorter
    exact Nat.not_lt.2 hshortest hlength

theorem eq_of_prefix_encode (h : encode m <+: encode n) : m = n := by
  obtain ⟨rest, hrest⟩ := h
  have hread := read_encode_append m rest
  have hwhole := read_encode_append n []
  rw [List.append_nil, ← hrest, hread] at hwhole
  cases hwhole
  rfl

theorem decodeAll_of_read (h : read bytes = .ok (n, rest)) :
    decodeAll bytes = (.ok n, rest) :: decodeAll rest := by
  rw [decodeAll]
  split
  · rename_i hread
    cases h.symm.trans hread
    rfl
  · rename_i hread
    cases h.symm.trans hread

theorem decodeAll_flatMap_append (numbers : List UInt64) (rest : Bytes) :
    (decodeAll (numbers.flatMap encode ++ rest)).map Prod.fst =
      numbers.map .ok ++ (decodeAll rest).map Prod.fst := by
  induction numbers with
  | nil => rfl
  | cons n numbers ih =>
    have hread := read_encode_append n (numbers.flatMap encode ++ rest)
    rw [List.flatMap_cons, List.append_assoc, decodeAll_of_read hread, List.map_cons, ih]
    rfl

theorem decodeAll_nil : decodeAll [] = [(.error .unexpectedEnd, [])] := by
  rw [decodeAll]
  rfl

/-- What is written is read back in front of anything, and nothing else is read. So no form begins
another, and numbers written one behind the other come back one by one. All other bytes are
refused: none, too few behind the first, or a form for a number that has a shorter one. -/
theorem canonical_prefix_code :
    (∀ bytes n rest, decode bytes = (.ok n, rest) ↔ bytes = encode n ++ rest) ∧
      (∀ m n, encode m <+: encode n ↔ m = n) ∧
      (∀ numbers : List UInt64, (decodeAll (numbers.flatMap encode)).map Prod.fst =
        numbers.map .ok ++ [.error .unexpectedEnd]) ∧
      ∀ bytes e left, decode bytes = (.error e, left) ↔ Fault bytes e left := by
  refine ⟨fun bytes n rest => ?read, fun m n => ?begins, fun numbers => ?all,
    fun bytes e left => ⟨fault_of_decode, decode_of_fault⟩⟩
  case read => rw [← read_eq_ok_iff_decode, read_eq_ok_iff]
  case begins =>
    refine ⟨eq_of_prefix_encode, ?_⟩
    rintro rfl
    exact List.prefix_rfl
  case all =>
    have hall := decodeAll_flatMap_append numbers []
    rwa [List.append_nil, decodeAll_nil] at hall

example : decode [0xfd, 0x00, 0xfc, 0x07] = (.error .nonCanonical, [0x07]) := by decide

end Lightpay.Tlv.BigSize
