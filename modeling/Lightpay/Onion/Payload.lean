import Lightpay.Onion.MultiPart
import Lightpay.Onion.Violation
import Lightpay.ShortChannelId
import Lightpay.Tlv.Writer

/-!
What a node on a route is told in its onion payload: how much to forward, with which timelock and
over which channel. Every hop has an amount and a timelock; the final hop names no channel, and
the hops before it carry no multi-part record.
-/

namespace Lightpay.Onion

inductive Network where
  | bitcoin
  | litecoin
deriving DecidableEq, Repr

structure Forward where
  network : Network
  /-- The outgoing channel, or the exit at the final hop. -/
  nextHop : ShortChannelId
  amount : Amount
  timelock : UInt32
deriving DecidableEq, Repr

structure Payload where
  forward : Forward
  multiPart : Option MultiPart
deriving DecidableEq

/-- The fixed format that came before records. -/
structure LegacyHop where
  realm : UInt8
  nextAddress : Bytes
  amount : UInt64
  timelock : UInt32
deriving DecidableEq, Repr

inductive PayloadError where
  | invalid (violation : Violation)
  | tlv (error : Tlv.Error)
deriving DecidableEq, Repr

def PayloadError.message : PayloadError → String
  | .invalid violation => violation.message
  | .tlv error => error.message

namespace Payload

def amountType : UInt64 := 2

def timelockType : UInt64 := 4

def nextHopType : UInt64 := 6

def knownTypes : List UInt64 :=
  [amountType, timelockType, nextHopType, MultiPart.recordType]

/-- The first rule that the record types of a hop break: an amount, a timelock, no next hop at the
final hop, no multi-part record before it. -/
def check (types : List UInt64) (nextHop : ShortChannelId) : Except Violation Unit :=
  let final : Bool := nextHop.IsExit
  if amountType ∉ types then .error ⟨amountType, .omitted, final⟩
  else if timelockType ∉ types then .error ⟨timelockType, .omitted, final⟩
  else if final ∧ nextHopType ∈ types then .error ⟨nextHopType, .included, final⟩
  else if ¬ final ∧ MultiPart.recordType ∈ types then
    .error ⟨MultiPart.recordType, .included, final⟩
  else .ok ()

def ofLegacy (hop : LegacyHop) : Payload where
  forward :=
    { network := .bitcoin
      nextHop := .unpack (UInt64.ofNat (Bytes.toNat hop.nextAddress))
      amount := ⟨hop.amount⟩
      timelock := hop.timelock }
  multiPart := none

def nextHop (stream : Tlv.Stream) : Except Tlv.Error ShortChannelId :=
  match stream.get? nextHopType with
  | some value => (Tlv.readU64 nextHopType value).map .unpack
  | none => .ok .exit

/-- Judges how the reading of a stream ended. What precedes an unknown required record is checked
first, and a rule broken there is reported in its place. -/
def checkResult (stream : Tlv.Stream) (nextHop : ShortChannelId) :
    Except Tlv.Error Unit → Except PayloadError Unit
  | .error (.unknownRequired type) => do
    (check stream.types nextHop).mapError .invalid
    throw (.invalid ⟨type, .required, nextHop.IsExit⟩)
  | .error e => throw (.tlv e)
  | .ok () => (check stream.types nextHop).mapError .invalid

def ofStream (stream : Tlv.Stream) (nextHop : ShortChannelId) : Except Tlv.Error Payload := do
  let amount ← Tlv.readTu64 amountType ((stream.get? amountType).getD [])
  let timelock ← Tlv.readTu32 timelockType ((stream.get? timelockType).getD [])
  let multiPart ← match stream.get? MultiPart.recordType with
    | some value => (MultiPart.decode value).map some
    | none => pure none
  return { forward := ⟨.bitcoin, nextHop, ⟨amount⟩, timelock⟩, multiPart }

def decode (bytes : Bytes) : Except PayloadError Payload := do
  let (stream, result) := Tlv.Stream.decodePartial knownTypes bytes
  let next ← (nextHop stream).mapError .tlv
  checkResult stream next result
  (ofStream stream next).mapError .tlv

end Payload

end Lightpay.Onion
