import Lightpay.Document.Wire
import Lightpay.Json.Parser
import Lightpay.Json.Printer
import Lightpay.Payment.Basic

/-!
The JSON forms of routes, attempts and payments, and the text under which a payment is stored.
-/

namespace Lightpay

namespace Hop

def toJson (hop : Hop) : Json :=
  .obj [("pub_key", hop.node.toJson), ("channel_id", hop.channel.toJson),
    ("outgoing_time_lock", .ofU32 hop.timelock), ("amt_to_forward", hop.amount.toJson),
    ("mpp", Json.ofOption Onion.MultiPart.toJson hop.multiPart)]

def ofJson? (json : Json) : Option Hop := do
  let fields ← json.fields?
    ["pub_key", "channel_id", "outgoing_time_lock", "amt_to_forward", "mpp"] []
  let node ← fields.get? "pub_key" PublicKey.ofJson?
  let channel ← fields.get? "channel_id" ShortChannelId.ofJson?
  let timelock ← fields.get? "outgoing_time_lock" Json.u32?
  let amount ← fields.get? "amt_to_forward" Amount.ofJson?
  let multiPart ← fields.optional? "mpp" Onion.MultiPart.ofJson?
  return { node, channel, timelock, amount, multiPart }

end Hop

namespace Route

def toJson (route : Route) : Json :=
  .obj [("total_time_lock", .ofU32 route.timelock), ("total_amount", route.amount.toJson),
    ("source_pub_key", route.source.toJson), ("hops", .arr (route.hops.map Hop.toJson))]

def ofJson? (json : Json) : Option Route := do
  let fields ← json.fields? ["total_time_lock", "total_amount", "source_pub_key", "hops"] []
  let timelock ← fields.get? "total_time_lock" Json.u32?
  let amount ← fields.get? "total_amount" Amount.ofJson?
  let source ← fields.get? "source_pub_key" PublicKey.ofJson?
  let hops ← fields.get? "hops" (Json.list? Hop.ofJson?)
  return { timelock, amount, source, hops }

end Route

namespace Status

def toJson (status : Status) : Json := .str status.text

def ofJson? (json : Json) : Option Status := json.name?.bind ofText?

end Status

namespace GiveUpReason

def toJson (reason : GiveUpReason) : Json := .str reason.text

def ofJson? (json : Json) : Option GiveUpReason := json.name?.bind ofText?

end GiveUpReason

namespace FailureCause

def toJson (cause : FailureCause) : Json := .str cause.text

def ofJson? (json : Json) : Option FailureCause := json.name?.bind ofText?

end FailureCause

namespace CreationInfo

def toJson (info : CreationInfo) : Json :=
  .obj [("payment_hash", info.hash.toJson), ("value", info.value.toJson),
    ("creation_time", .ofU64 info.createdAt), ("payment_request", Bytes.toJson info.request)]

def ofJson? (json : Json) : Option CreationInfo := do
  let fields ← json.fields? ["payment_hash", "value", "creation_time", "payment_request"] []
  let hash ← fields.get? "payment_hash" PaymentHash.ofJson?
  let value ← fields.get? "value" Amount.ofJson?
  let createdAt ← fields.get? "creation_time" Json.u64?
  let request ← fields.get? "payment_request" Bytes.ofJson?
  return { hash, value, createdAt, request }

end CreationInfo

namespace AttemptInfo

def toJson (info : AttemptInfo) : Json :=
  .obj [("attempt_id", .ofU64 info.id), ("session_key", info.sessionKey.toJson),
    ("route", info.route.toJson), ("attempt_time", .ofU64 info.startedAt)]

def ofJson? (json : Json) : Option AttemptInfo := do
  let fields ← json.fields? ["attempt_id", "session_key", "route", "attempt_time"] []
  let id ← fields.get? "attempt_id" Json.u64?
  let sessionKey ← fields.get? "session_key" SecretKey.ofJson?
  let route ← fields.get? "route" Route.ofJson?
  let startedAt ← fields.get? "attempt_time" Json.u64?
  return { id, sessionKey, route, startedAt }

end AttemptInfo

namespace AttemptFailure

def toJson (failure : AttemptFailure) : Json :=
  .obj [("reason", failure.cause.toJson), ("fail_time", .ofU64 failure.failedAt),
    ("failure_source_index", Json.ofOption Json.ofU32 failure.source)]

def ofJson? (json : Json) : Option AttemptFailure := do
  let fields ← json.fields? ["reason", "fail_time", "failure_source_index"] []
  let cause ← fields.get? "reason" FailureCause.ofJson?
  let failedAt ← fields.get? "fail_time" Json.u64?
  let source ← fields.optional? "failure_source_index" Json.u32?
  return { cause, failedAt, source }

end AttemptFailure

namespace Settlement

def toJson (settlement : Settlement) : Json :=
  .obj [("preimage", settlement.preimage.toJson), ("settle_time", .ofU64 settlement.settledAt)]

def ofJson? (json : Json) : Option Settlement := do
  let fields ← json.fields? ["preimage", "settle_time"] []
  let preimage ← fields.get? "preimage" Preimage.ofJson?
  let settledAt ← fields.get? "settle_time" Json.u64?
  return { preimage, settledAt }

end Settlement

namespace Outcome

def toJson : Outcome → Json
  | .pending => .str "pending"
  | .failed failure => .obj [("failed", failure.toJson)]
  | .settled settlement => .obj [("settled", settlement.toJson)]

def ofJson? : Json → Option Outcome
  | .str "pending" => some .pending
  | .obj [("pending", .null)] => some .pending
  | .obj [("failed", json)] => (AttemptFailure.ofJson? json).map .failed
  | .obj [("settled", json)] => (Settlement.ofJson? json).map .settled
  | _ => none

end Outcome

namespace Attempt

def toJson (attempt : Attempt) : Json :=
  .obj [("info", attempt.info.toJson), ("outcome", attempt.outcome.toJson)]

def ofJson? (json : Json) : Option Attempt := do
  let fields ← json.fields? ["info", "outcome"] []
  let info ← fields.get? "info" AttemptInfo.ofJson?
  let outcome ← fields.get? "outcome" Outcome.ofJson?
  return { info, outcome }

end Attempt

namespace Payment

def toJson (payment : Payment) : Json :=
  .obj [("info", payment.info.toJson), ("htlcs", .arr (payment.attempts.map Attempt.toJson)),
    ("failure_reason", Json.ofOption GiveUpReason.toJson payment.giveUpReason),
    ("settled_attempt_id", Json.ofOption Json.ofU64 payment.settledId)]

def ofJson? (json : Json) : Option Payment := do
  let fields ← json.fields? ["info", "htlcs", "failure_reason"] ["settled_attempt_id"]
  let info ← fields.get? "info" CreationInfo.ofJson?
  let attempts ← fields.get? "htlcs" (Json.list? Attempt.ofJson?)
  let giveUpReason ← fields.optional? "failure_reason" GiveUpReason.ofJson?
  let settledId ← fields.optional? "settled_attempt_id" Json.u64?
  return { info, attempts, giveUpReason, settledId }

def text (payment : Payment) : String := payment.toJson.print

def parse? (text : String) : Option Payment := (Json.parse? text).bind ofJson?

end Payment

end Lightpay
