import Lightpay.Error
import Lightpay.Keys

/-!
A route is the path of one attempt: hops in order, the payee last. Each hop is told in its payload
over which channel to reach the next one, so the first hop's own channel is never written.
-/

namespace Lightpay

structure Hop where
  node : PublicKey
  /-- The channel over which the node is reached. -/
  channel : ShortChannelId
  /-- The timelock of the node's outgoing HTLC. -/
  timelock : UInt32
  amount : Amount
  multiPart : Option Onion.MultiPart
deriving DecidableEq

structure Route where
  timelock : UInt32
  amount : Amount
  source : PublicKey
  hops : List Hop
deriving DecidableEq

namespace Hop

def pack (id : ShortChannelId) : Except Error UInt64 :=
  match id.pack? with
  | some packed => .ok packed
  | none => .error (.channelOutOfRange id)

/-- The records for a node that forwards over `next`, or that is the payee if `next` is the exit. -/
def write (hop : Hop) (next : ShortChannelId) : Except Error Tlv.Writer := do
  let writer := Tlv.Writer.empty
  let writer ← (writer.putTruncated Onion.Payload.amountType hop.amount.msat).mapError .tlv
  let writer ← (writer.putTruncated Onion.Payload.timelockType hop.timelock.toUInt64).mapError .tlv
  let writer ←
    if next.IsExit then pure writer
    else do
      let packed ← pack next
      (writer.putU64 Onion.Payload.nextHopType packed).mapError .tlv
  match hop.multiPart with
  | none => return writer
  | some part => (writer.put Onion.MultiPart.recordType part.encode).mapError .tlv

def payload (hop : Hop) (next : ShortChannelId) : Except Error Bytes :=
  (hop.write next).map (·.bytes)

end Hop

namespace Route

def receiverAmount (route : Route) : Amount :=
  match route.hops.getLast? with
  | some hop => hop.amount
  | none => .zero

/-- What the hops before the payee keep; zero if less is sent than arrives. -/
def fees (route : Route) : Amount :=
  (route.amount.checkedSub route.receiverAmount).getD .zero

def payloadsFrom (index : Nat) : List Hop → Except Error (List Bytes)
  | [] => .ok []
  | [hop] => do
    let payload ← hop.payload .exit
    return [payload]
  | hop :: next :: rest => do
    if next.channel.IsExit then throw (.noChannel (index + 1))
    let payload ← hop.payload next.channel
    let payloads ← payloadsFrom (index + 1) (next :: rest)
    return payload :: payloads

def payloads (route : Route) : Except Error (List Bytes) :=
  payloadsFrom 0 route.hops

end Route

end Lightpay
