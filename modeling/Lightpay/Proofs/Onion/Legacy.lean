import Lightpay.Proofs.Onion.RoutePayloads

/-! The fixed format and the records mean the same. A hop that is told in records what a legacy hop
holds reads back the payload of the legacy hop. The address goes into its record as it is, except
that the exit, which is all zeros, gets no record. -/

namespace Lightpay

open Tlv Onion

namespace Onion.LegacyHop

def packed (legacy : LegacyHop) : UInt64 := UInt64.ofNat (Bytes.toNat legacy.nextAddress)

/-- The hop with the amount and the timelock, wherever it is and however it is reached. -/
def toHop (legacy : LegacyHop) (node : PublicKey) (channel : ShortChannelId) : Hop :=
  ⟨node, channel, legacy.timelock, ⟨legacy.amount⟩, none⟩

def onward (legacy : LegacyHop) : Option UInt64 :=
  if legacy.packed = 0 then none else some legacy.packed

/-- The records that say what the fixed format does. -/
def records (legacy : LegacyHop) : List Record :=
  [⟨Payload.amountType, truncated legacy.amount⟩,
    ⟨Payload.timelockType, truncated legacy.timelock.toUInt64⟩] ++
  if legacy.nextAddress.all (· = 0) then []
  else [⟨Payload.nextHopType, legacy.nextAddress⟩]

variable {legacy : LegacyHop}

theorem onward_eq_none_iff :
    legacy.onward = none ↔ ShortChannelId.unpack legacy.packed = .exit := by
  rw [onward, ShortChannelId.unpack_eq_exit_iff]
  split <;> simp [*]

theorem eq_packed_of_onward {packed : UInt64} (h : legacy.onward = some packed) :
    packed = legacy.packed := by
  rw [onward] at h
  split at h
  · cases h
  · cases h
    rfl

theorem toNat_packed (haddress : legacy.nextAddress.length = 8) :
    legacy.packed.toNat = Bytes.toNat legacy.nextAddress := by
  have hlt := Bytes.toNat_lt legacy.nextAddress
  rw [haddress] at hlt
  exact UInt64.toNat_ofNat_of_lt' hlt

theorem packed_eq_zero_iff (haddress : legacy.nextAddress.length = 8) :
    legacy.packed = 0 ↔ legacy.nextAddress.all (· = 0) = true := by
  simp only [List.all_eq_true, decide_eq_true_eq]
  rw [← Bytes.toNat_eq_zero_iff, ← toNat_packed haddress]
  exact (UInt64.toNat_inj (b := 0)).symm

theorem records_eq (haddress : legacy.nextAddress.length = 8) (node : PublicKey)
    (channel : ShortChannelId) : (legacy.toHop node channel).records legacy.onward =
      legacy.records := by
  have hfixed : fixed legacy.packed = legacy.nextAddress :=
    ((eq_fixed_iff haddress).2 (toNat_packed haddress).symm).symm
  rw [Hop.records, records, onward]
  by_cases hzero : legacy.packed = 0
  · rw [if_pos hzero, if_pos ((packed_eq_zero_iff haddress).1 hzero)]
    rfl
  · rw [if_neg hzero, if_neg (mt (packed_eq_zero_iff haddress).2 hzero)]
    simp only [Option.toList_some, List.map_singleton, hfixed]
    rfl

theorem payload_toHop (legacy : LegacyHop) (node : PublicKey) (channel : ShortChannelId) :
    (legacy.toHop node channel).payload (.unpack legacy.packed) =
      .ok (((legacy.toHop node channel).records legacy.onward).flatMap Record.encode) := by
  by_cases hzero : legacy.packed = 0
  · rw [onward, if_pos hzero, ShortChannelId.unpack_eq_exit_iff.2 hzero]
    exact Hop.payload_exit _
  · rw [onward, if_neg hzero]
    exact Hop.payload_of_pack? (mt ShortChannelId.unpack_eq_exit_iff.1 hzero)
      (ShortChannelId.pack?_unpack legacy.packed)

/-- Whatever its fields are, a legacy hop can be told in records, and they read as the same
payload. -/
theorem told_as_records (legacy : LegacyHop) (node : PublicKey) (channel : ShortChannelId) :
    ∃ payload, (legacy.toHop node channel).payload
        (.unpack (UInt64.ofNat (Bytes.toNat legacy.nextAddress))) = .ok payload ∧
      Payload.decode payload = .ok (.ofLegacy legacy) ∧
      (legacy.nextAddress.length = 8 → payload = legacy.records.flatMap Record.encode) := by
  refine ⟨_, payload_toHop legacy node channel, ?_, fun haddress => ?_⟩
  · refine Hop.decode_records (fun packed hpacked => ?_) onward_eq_none_iff (.inr rfl)
    rw [eq_packed_of_onward hpacked]
    rfl
  · rw [records_eq haddress]

end Onion.LegacyHop

end Lightpay
