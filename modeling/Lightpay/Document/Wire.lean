import Lightpay.Json.Fields
import Lightpay.NodeAddress
import Lightpay.Onion.Payload
import Lightpay.PaymentHash

/-!
The JSON forms of wire types. Amounts and flags are bare integers; hashes, keys and byte strings
are hexadecimal; endpoints are their own text.
-/

namespace Lightpay

def Amount.toJson (amount : Amount) : Json := .ofU64 amount.msat

def Amount.ofJson? (json : Json) : Option Amount := json.u64?.map .mk

def ServiceFlags.toJson (flags : ServiceFlags) : Json := .ofU64 flags.bits

def ServiceFlags.ofJson? (json : Json) : Option ServiceFlags := json.u64?.map .mk

def Bytes.toJson (bytes : Bytes) : Json := .str (Hex.encode bytes)

def Bytes.ofJson? (json : Json) : Option Bytes :=
  json.str?.bind fun text => (Hex.decode text).toOption

def Bytes32.toJson (value : Bytes32) : Json := .str value.text

def Bytes32.ofJson? (json : Json) : Option Bytes32 :=
  json.str?.bind fun text => (Bytes32.parse text).toOption

def PaymentHash.toJson (hash : PaymentHash) : Json := hash.value.toJson

def PaymentHash.ofJson? (json : Json) : Option PaymentHash := (Bytes32.ofJson? json).map .mk

def Preimage.toJson (preimage : Preimage) : Json := preimage.value.toJson

def Preimage.ofJson? (json : Json) : Option Preimage := (Bytes32.ofJson? json).map .mk

def PublicKey.toJson (key : PublicKey) : Json := .str key.text

def PublicKey.ofJson? (json : Json) : Option PublicKey := json.str?.bind PublicKey.parse?

def SecretKey.toJson (key : SecretKey) : Json := .str key.text

def SecretKey.ofJson? (json : Json) : Option SecretKey := json.str?.bind SecretKey.parse?

def Endpoint.toJson (endpoint : Endpoint) : Json := .str endpoint.text

def Endpoint.ofJson? (json : Json) : Option Endpoint := json.str?.bind Endpoint.parse?

namespace ShortChannelId

def toJson (id : ShortChannelId) : Json :=
  .obj [("block_height", .ofU32 id.blockHeight), ("tx_index", .ofU32 id.txIndex),
    ("tx_position", .ofU16 id.txPosition)]

def ofJson? (json : Json) : Option ShortChannelId := do
  let fields ← json.fields? ["block_height", "tx_index", "tx_position"] []
  let blockHeight ← fields.get? "block_height" Json.u32?
  let txIndex ← fields.get? "tx_index" Json.u32?
  let txPosition ← fields.get? "tx_position" Json.u16?
  return { blockHeight, txIndex, txPosition }

end ShortChannelId

namespace NodeAddress

def toJson (address : NodeAddress) : Json :=
  .obj [("identity_key", address.identityKey.toJson), ("services", address.services.toJson),
    ("address", address.endpoint.toJson)]

def ofJson? (json : Json) : Option NodeAddress := do
  let fields ← json.fields? ["identity_key", "services", "address"] []
  let identityKey ← fields.get? "identity_key" PublicKey.ofJson?
  let services ← fields.get? "services" ServiceFlags.ofJson?
  let endpoint ← fields.get? "address" Endpoint.ofJson?
  return { identityKey, services, endpoint }

end NodeAddress

namespace Onion

namespace MultiPart

def toJson (part : MultiPart) : Json :=
  .obj [("payment_addr", part.address.toJson), ("total_msat", part.total.toJson)]

def ofJson? (json : Json) : Option MultiPart := do
  let fields ← json.fields? ["payment_addr", "total_msat"] []
  let address ← fields.get? "payment_addr" Bytes32.ofJson?
  let total ← fields.get? "total_msat" Amount.ofJson?
  return { address, total }

end MultiPart

namespace Network

def text : Network → String
  | .bitcoin => "bitcoin"
  | .litecoin => "litecoin"

def toJson (network : Network) : Json := .str network.text

def ofJson? (json : Json) : Option Network :=
  json.name?.bind fun name => [bitcoin, litecoin].find? (·.text = name)

end Network

namespace Forward

def toJson (forward : Forward) : Json :=
  .obj [("network", forward.network.toJson), ("next_hop", forward.nextHop.toJson),
    ("amount_to_forward", forward.amount.toJson), ("outgoing_ctlv", .ofU32 forward.timelock)]

def ofJson? (json : Json) : Option Forward := do
  let fields ← json.fields? ["network", "next_hop", "amount_to_forward", "outgoing_ctlv"] []
  let network ← fields.get? "network" Network.ofJson?
  let nextHop ← fields.get? "next_hop" ShortChannelId.ofJson?
  let amount ← fields.get? "amount_to_forward" Amount.ofJson?
  let timelock ← fields.get? "outgoing_ctlv" Json.u32?
  return { network, nextHop, amount, timelock }

end Forward

namespace Payload

def toJson (payload : Payload) : Json :=
  .obj [("fwd_info", payload.forward.toJson),
    ("mpp", Json.ofOption MultiPart.toJson payload.multiPart)]

def ofJson? (json : Json) : Option Payload := do
  let fields ← json.fields? ["fwd_info", "mpp"] []
  let forward ← fields.get? "fwd_info" Forward.ofJson?
  let multiPart ← fields.optional? "mpp" MultiPart.ofJson?
  return { forward, multiPart }

end Payload

namespace Violation

def Kind.label : Kind → String
  | .omitted => "Omitted"
  | .included => "Included"
  | .required => "Required"

def Kind.toJson (kind : Kind) : Json := .str kind.label

def Kind.ofJson? (json : Json) : Option Kind :=
  json.name?.bind fun name => [Kind.omitted, .included, .required].find? (·.label = name)

def toJson (violation : Violation) : Json :=
  .obj [("ty", .ofU64 violation.type), ("violation", violation.kind.toJson),
    ("final_hop", .bool violation.finalHop)]

def ofJson? (json : Json) : Option Violation := do
  let fields ← json.fields? ["ty", "violation", "final_hop"] []
  let type ← fields.get? "ty" Json.u64?
  let kind ← fields.get? "violation" Kind.ofJson?
  let finalHop ← fields.get? "final_hop" Json.bool?
  return { type, kind, finalHop }

end Violation

end Onion

end Lightpay
