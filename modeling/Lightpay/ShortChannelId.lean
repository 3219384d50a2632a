/-!
Short channel ids place a channel's funding output on the chain: block height, transaction
index, output index. Packed into 64 bits they take three, three and two bytes. The all-zero id
stands for the end of a route.
-/

namespace Lightpay

structure ShortChannelId where
  blockHeight : UInt32
  txIndex : UInt32
  txPosition : UInt16
deriving DecidableEq, Repr

namespace ShortChannelId

/-- The next hop of the payee: no channel at all. -/
def exit : ShortChannelId := ⟨0, 0, 0⟩

def IsExit (id : ShortChannelId) : Prop := id = exit

instance (id : ShortChannelId) : Decidable id.IsExit := inferInstanceAs (Decidable (id = exit))

def unpack (packed : UInt64) : ShortChannelId :=
  ⟨UInt32.ofNat (packed.toNat / 0x10000000000), UInt32.ofNat (packed.toNat / 0x10000 % 0x1000000),
    UInt16.ofNat packed.toNat⟩

/-- Height and index fit three bytes each. -/
def Packable (id : ShortChannelId) : Prop :=
  id.blockHeight.toNat < 0x1000000 ∧ id.txIndex.toNat < 0x1000000

instance (id : ShortChannelId) : Decidable id.Packable :=
  inferInstanceAs (Decidable (_ ∧ _))

def pack? (id : ShortChannelId) : Option UInt64 :=
  if id.Packable then
    some (UInt64.ofNat
      (id.blockHeight.toNat * 0x10000000000 + id.txIndex.toNat * 0x10000 + id.txPosition.toNat))
  else none

def compare (a b : ShortChannelId) : Ordering :=
  ((compareOfLessAndEq a.blockHeight b.blockHeight).then
    (compareOfLessAndEq a.txIndex b.txIndex)).then
    (compareOfLessAndEq a.txPosition b.txPosition)

def text (id : ShortChannelId) : String :=
  toString id.blockHeight.toNat ++ ":" ++ toString id.txIndex.toNat ++ ":" ++
    toString id.txPosition.toNat

end ShortChannelId

end Lightpay
