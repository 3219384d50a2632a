import Lightpay.Proofs.Onion.ChannelId
import Lightpay.Route

/-! Packed channel ids are as good as the ids. Packing is refused where a field is too wide, and
else it can be undone; the fields stand behind each other with the height in front, so packed
numbers are in the order of the ids. -/

namespace Lightpay.ShortChannelId

variable {id left right : ShortChannelId} {packed : UInt64}

theorem unpack_eq_shifts (packed : UInt64) :
    unpack packed = ⟨(packed >>> 40).toUInt32, (packed >>> 16 &&& 0xffffff).toUInt32,
      packed.toUInt16⟩ := by
  obtain ⟨hheight, hindex, hposition⟩ := toNat_unpack packed
  have hpacked : packed.toNat < 2 ^ 64 := packed.toNat_lt
  apply ext_toNat
  · rw [hheight, UInt64.toNat_toUInt32, UInt64.toNat_shiftRight]
    change _ = packed.toNat >>> 40 % 2 ^ 32
    rw [Nat.shiftRight_eq_div_pow]
    omega
  · rw [hindex, UInt64.toNat_toUInt32, UInt64.toNat_and, UInt64.toNat_shiftRight]
    change _ = (packed.toNat >>> 16 &&& (2 ^ 24 - 1)) % 2 ^ 32
    rw [Nat.and_two_pow_sub_one_eq_mod, Nat.shiftRight_eq_div_pow]
    omega
  · rw [hposition, UInt64.toNat_toUInt16]

theorem pack?_eq_shifts (hpackable : id.Packable) :
    id.pack? = some (id.blockHeight.toUInt64 <<< 40 ||| id.txIndex.toUInt64 <<< 16 |||
      id.txPosition.toUInt64) := by
  obtain ⟨hheight, hindex⟩ := hpackable
  have hposition : id.txPosition.toNat < 2 ^ 16 := id.txPosition.toNat_lt
  have hhigh : (id.blockHeight.toUInt64 <<< 40).toNat = 2 ^ 40 * id.blockHeight.toNat := by
    rw [UInt64.toNat_shiftLeft, UInt32.toNat_toUInt64]
    change id.blockHeight.toNat <<< 40 % 2 ^ 64 = _
    rw [Nat.shiftLeft_eq]
    omega
  have hmiddle : (id.txIndex.toUInt64 <<< 16).toNat = 2 ^ 16 * id.txIndex.toNat := by
    rw [UInt64.toNat_shiftLeft, UInt32.toNat_toUInt64]
    change id.txIndex.toNat <<< 16 % 2 ^ 64 = _
    rw [Nat.shiftLeft_eq]
    omega
  have hfront : 2 ^ 40 * id.blockHeight.toNat ||| 2 ^ 16 * id.txIndex.toNat =
      2 ^ 16 * (2 ^ 24 * id.blockHeight.toNat + id.txIndex.toNat) := by
    rw [← Nat.two_pow_add_eq_or_of_lt (by omega)]
    omega
  rw [pack?, if_pos ⟨hheight, hindex⟩, Option.some.injEq]
  apply UInt64.toNat.inj
  rw [toNat_pack ⟨hheight, hindex⟩, UInt64.toNat_or, UInt64.toNat_or, UInt16.toNat_toUInt64,
    hhigh, hmiddle, hfront, ← Nat.two_pow_add_eq_or_of_lt hposition]
  omega

theorem compare_toNat {α : Type} [LT α] [DecidableLT α] [DecidableEq α] {toNat : α → Nat}
    (hlt : ∀ a b, a < b ↔ toNat a < toNat b) (heq : ∀ a b, a = b ↔ toNat a = toNat b) (a b : α) :
    compareOfLessAndEq a b = compareOfLessAndEq (toNat a) (toNat b) := by
  simp only [compareOfLessAndEq, hlt, heq]

/-- A number is compared by what stands in front of its last digit, then by the digit. -/
theorem compare_digit {base high low high' low' : Nat} (hlow : low < base) (hlow' : low' < base) :
    compareOfLessAndEq (high * base + low) (high' * base + low') =
      (compareOfLessAndEq high high').then (compareOfLessAndEq low low') := by
  rcases Nat.lt_trichotomy high high' with hlt | rfl | hgt
  · have hle : (high + 1) * base ≤ high' * base := Nat.mul_le_mul_right base hlt
    rw [Nat.add_mul, Nat.one_mul] at hle
    rw [compareOfLessAndEq, if_pos (by omega), compareOfLessAndEq, if_pos hlt]
    rfl
  · simp [compareOfLessAndEq]
  · have hle : (high' + 1) * base ≤ high * base := Nat.mul_le_mul_right base hgt
    rw [Nat.add_mul, Nat.one_mul] at hle
    rw [compareOfLessAndEq, if_neg (by omega), if_neg (by omega), compareOfLessAndEq,
      if_neg (Nat.lt_asymm hgt), if_neg (Nat.ne_of_gt hgt)]
    rfl

theorem compare_of_pack? {p q : UInt64} (hleft : left.pack? = some p)
    (hright : right.pack? = some q) : left.compare right = compareOfLessAndEq p q := by
  rw [pack?, Option.ite_none_right_eq_some, Option.some.injEq] at hleft hright
  obtain ⟨hp, rfl⟩ := hleft
  obtain ⟨hq, rfl⟩ := hright
  have hposition : ∀ id : ShortChannelId, id.txPosition.toNat < 0x10000 :=
    fun id => id.txPosition.toNat_lt
  have hfront : ∀ id : ShortChannelId,
      id.blockHeight.toNat * 0x10000000000 + id.txIndex.toNat * 0x10000 + id.txPosition.toNat =
        (id.blockHeight.toNat * 0x1000000 + id.txIndex.toNat) * 0x10000 + id.txPosition.toNat := by
    intro id
    omega
  rw [compare_toNat (fun _ _ => UInt64.lt_iff_toNat_lt) (fun _ _ => UInt64.toNat_inj.symm),
    toNat_pack hp, toNat_pack hq, hfront, hfront, compare_digit (hposition left) (hposition right),
    compare_digit hp.2 hq.2, compare,
    compare_toNat (fun _ _ => UInt32.lt_iff_toNat_lt) (fun _ _ => UInt32.toNat_inj.symm),
    compare_toNat (fun _ _ => UInt32.lt_iff_toNat_lt) (fun _ _ => UInt32.toNat_inj.symm),
    compare_toNat (fun _ _ => UInt16.lt_iff_toNat_lt) (fun _ _ => UInt16.toNat_inj.symm)]

theorem pack_eq_ok_iff : Hop.pack id = .ok packed ↔ id.pack? = some packed := by
  rw [Hop.pack]
  cases id.pack? <;> simp

theorem pack_eq_error_iff {e : Error} :
    Hop.pack id = .error e ↔ ¬ id.Packable ∧ e = .channelOutOfRange id := by
  rw [Hop.pack, pack?]
  by_cases hpackable : id.Packable <;> simp [hpackable, eq_comm]

theorem pack_eq_ok_iff_unpack : Hop.pack id = .ok packed ↔ unpack packed = id := by
  rw [pack_eq_ok_iff]
  constructor
  · exact unpack_of_pack?
  · rintro rfl
    exact pack?_unpack packed

theorem exists_pack_iff : (∃ packed, Hop.pack id = .ok packed) ↔ id.Packable := by
  simp only [pack_eq_ok_iff, pack?, Option.ite_none_right_eq_some]
  constructor
  · rintro ⟨_, hpackable, _⟩
    exact hpackable
  · intro hpackable
    exact ⟨_, hpackable, rfl⟩

/-- All numbers of 64 bits and all ids whose height and index fit three bytes are the same, up to
packing; other ids are refused by name. The order of the ids is that of the packed numbers, and
the exit is the id that packs to zero. -/
theorem packed_faithfully :
    (∀ packed, unpack packed = ⟨(packed >>> 40).toUInt32,
      (packed >>> 16 &&& 0xffffff).toUInt32, packed.toUInt16⟩) ∧
    (∀ packed, Hop.pack (unpack packed) = .ok packed) ∧
    (∀ id : ShortChannelId, (∃ packed, Hop.pack id = .ok packed) ↔
      id.blockHeight.toNat < 0x1000000 ∧ id.txIndex.toNat < 0x1000000) ∧
    (∀ id packed, Hop.pack id = .ok packed → unpack packed = id ∧
      packed = (id.blockHeight.toUInt64 <<< 40 ||| id.txIndex.toUInt64 <<< 16 |||
        id.txPosition.toUInt64)) ∧
    (∀ id e, Hop.pack id = .error e ↔
      ¬ (id.blockHeight.toNat < 0x1000000 ∧ id.txIndex.toNat < 0x1000000) ∧
        e = .channelOutOfRange id) ∧
    (∀ left right p q, Hop.pack left = .ok p → Hop.pack right = .ok q →
      left.compare right = compareOfLessAndEq p q) ∧
    ∀ id : ShortChannelId, id.IsExit ↔ Hop.pack id = .ok 0 := by
  refine ⟨unpack_eq_shifts, fun packed => pack_eq_ok_iff_unpack.2 rfl, fun id => exists_pack_iff,
    fun id packed hpack => ⟨pack_eq_ok_iff_unpack.1 hpack, ?layout⟩,
    fun id e => pack_eq_error_iff, fun left right p q hleft hright => ?order, fun id => ?sentinel⟩
  case layout =>
    have hshifts := pack?_eq_shifts (exists_pack_iff.1 ⟨packed, hpack⟩)
    exact Option.some.inj ((pack_eq_ok_iff.1 hpack).symm.trans hshifts)
  case order => exact compare_of_pack? (pack_eq_ok_iff.1 hleft) (pack_eq_ok_iff.1 hright)
  case sentinel =>
    rw [pack_eq_ok_iff_unpack, unpack_eq_exit_iff.2 rfl, eq_comm]
    rfl

theorem packed_faithfully_carry :
    Hop.pack ⟨539268, 0xffffff, 1⟩ = .ok 0x083a84ffffff0001 ∧
    Hop.pack ⟨539269, 0, 0⟩ = .ok 0x083a850000000000 ∧
    unpack 0x083a84ffffff0001 = ⟨539268, 0xffffff, 1⟩ ∧
    compare ⟨539268, 0xffffff, 1⟩ ⟨539269, 0, 0⟩ = .lt := by
  obtain ⟨_, _, _, hpacked, _, horder, _⟩ := packed_faithfully
  have hfull : Hop.pack ⟨539268, 0xffffff, 1⟩ = .ok 0x083a84ffffff0001 :=
    pack_eq_ok_iff_unpack.2 (by decide)
  have hnext : Hop.pack ⟨539269, 0, 0⟩ = .ok 0x083a850000000000 :=
    pack_eq_ok_iff_unpack.2 (by decide)
  exact ⟨hfull, hnext, (hpacked _ _ hfull).1, (horder _ _ _ _ hfull hnext).trans (by decide)⟩

end Lightpay.ShortChannelId
