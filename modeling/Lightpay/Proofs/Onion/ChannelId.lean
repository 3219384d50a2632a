import Lightpay.ShortChannelId
import Mathlib.Algebra.Group.Nat.Defs

/-! Channel ids in 64 bits. An id that is packed is unpacked as it was, and the exit is the
one that packs to zero. -/

namespace Lightpay.ShortChannelId

variable {id : ShortChannelId} {packed : UInt64}

theorem toNat_unpack (packed : UInt64) :
    (unpack packed).blockHeight.toNat = packed.toNat / 0x10000000000 ∧
      (unpack packed).txIndex.toNat = packed.toNat / 0x10000 % 0x1000000 ∧
      (unpack packed).txPosition.toNat = packed.toNat % 0x10000 := by
  have hpacked : packed.toNat < 2 ^ 64 := packed.toNat_lt
  refine ⟨?_, ?_, ?_⟩
  · rw [unpack, UInt32.toNat_ofNat']
    omega
  · rw [unpack, UInt32.toNat_ofNat']
    omega
  · rw [unpack, UInt16.toNat_ofNat']

theorem ext_toNat {left right : ShortChannelId}
    (hheight : left.blockHeight.toNat = right.blockHeight.toNat)
    (hindex : left.txIndex.toNat = right.txIndex.toNat)
    (hposition : left.txPosition.toNat = right.txPosition.toNat) : left = right := by
  obtain ⟨height, index, position⟩ := left
  rw [mk.injEq]
  exact ⟨UInt32.toNat.inj hheight, UInt32.toNat.inj hindex, UInt16.toNat.inj hposition⟩

theorem unpack_eq_exit_iff : unpack packed = exit ↔ packed = 0 := by
  constructor
  · intro hexit
    obtain ⟨hheight, hindex, hposition⟩ := toNat_unpack packed
    rw [hexit] at hheight hindex hposition
    change 0 = _ at hheight hindex hposition
    apply UInt64.toNat.inj
    change packed.toNat = 0
    omega
  · rintro rfl
    rfl

theorem toNat_pack (hpackable : id.Packable) :
    (UInt64.ofNat (id.blockHeight.toNat * 0x10000000000 + id.txIndex.toNat * 0x10000 +
      id.txPosition.toNat)).toNat =
      id.blockHeight.toNat * 0x10000000000 + id.txIndex.toNat * 0x10000 + id.txPosition.toNat := by
  obtain ⟨hheight, hindex⟩ := hpackable
  have hposition : id.txPosition.toNat < 2 ^ 16 := id.txPosition.toNat_lt
  rw [UInt64.toNat_ofNat']
  omega

theorem unpack_of_pack? (h : id.pack? = some packed) : unpack packed = id := by
  rw [pack?, Option.ite_none_right_eq_some] at h
  obtain ⟨hpackable, hpacked⟩ := h
  cases hpacked
  obtain ⟨hheight, hindex, hposition⟩ := toNat_unpack (UInt64.ofNat _)
  rw [toNat_pack hpackable] at hheight hindex hposition
  have hlow : id.txPosition.toNat < 2 ^ 16 := id.txPosition.toNat_lt
  have hmiddle := hpackable.2
  apply ext_toNat
  · rw [hheight]
    omega
  · rw [hindex]
    omega
  · rw [hposition]
    omega

theorem pack?_unpack (packed : UInt64) : (unpack packed).pack? = some packed := by
  obtain ⟨hheight, hindex, hposition⟩ := toNat_unpack packed
  have hpacked : packed.toNat < 2 ^ 64 := packed.toNat_lt
  have hpackable : (unpack packed).Packable := by
    rw [Packable, hheight, hindex]
    omega
  rw [pack?, if_pos hpackable, Option.some.injEq]
  apply UInt64.toNat.inj
  rw [toNat_pack hpackable, hheight, hindex, hposition]
  omega

end Lightpay.ShortChannelId
