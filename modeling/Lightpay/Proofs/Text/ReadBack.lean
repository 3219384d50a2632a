import Lightpay.Proofs.Text.Endpoint
import Lightpay.Proofs.Text.Record

/-! Stored records come back from their texts as they went in. Reading undoes writing on the
values, the values are plain, and so the text determines the record. -/

namespace Lightpay

open Json

/-- Reading undoes writing, for values and for their texts. -/
structure Json.ReadsBack (write : α → Json) (read : Json → Option α) : Prop where
  value : ∀ a, read (write a) = some a
  text : ∀ a, (Json.parse? (write a).print).bind read = some a
  injective : Function.Injective fun a => (write a).print

theorem Json.readsBack_of_plain {write : α → Json} {read : Json → Option α}
    (hread : ∀ a, read (write a) = some a) (hplain : ∀ a, (write a).Plain) :
    ReadsBack write read := by
  have htext : ∀ a, (Json.parse? (write a).print).bind read = some a := by
    intro a
    rw [parse?_print _ (hplain a), Option.bind_some, hread a]
  refine ⟨hread, htext, ?_⟩
  intro a b hprint
  have hsome : some a = some b := by
    rw [← htext a, ← htext b]
    exact congrArg (fun text => (Json.parse? text).bind read) hprint
  exact Option.some.inj hsome

@[simp] theorem ServiceFlags.ofJson?_toJson (flags : ServiceFlags) :
    ofJson? flags.toJson = some flags := by
  simp [ofJson?, toJson]

@[simp] theorem Endpoint.ofJson?_toJson (endpoint : Endpoint) :
    ofJson? endpoint.toJson = some endpoint := by
  simp [ofJson?, toJson, str?]

/-- All three fields come back, not only the key that two addresses of one node share. -/
@[simp] theorem NodeAddress.ofJson?_toJson (address : NodeAddress) :
    ofJson? address.toJson = some address := by
  rw [toJson, ofJson?, fields?_obj _ _ _ rfl (by decide)]
  simp [get?_cons_self, get?_cons_ne]

theorem NodeAddress.toJson_plain (address : NodeAddress) : address.toJson.Plain := by
  simp [toJson, Plain, PlainMembers, PublicKey.toJson, ServiceFlags.toJson, Endpoint.toJson]

namespace Onion

@[simp] theorem Network.ofJson?_toJson (network : Network) :
    ofJson? network.toJson = some network := by
  cases network <;> rfl

@[simp] theorem Forward.ofJson?_toJson (forward : Forward) :
    ofJson? forward.toJson = some forward := by
  rw [toJson, ofJson?, fields?_obj _ _ _ rfl (by decide)]
  simp [get?_cons_self, get?_cons_ne]

@[simp] theorem Payload.ofJson?_toJson (payload : Payload) :
    ofJson? payload.toJson = some payload := by
  rw [toJson, ofJson?, fields?_obj _ _ _ rfl (by decide)]
  simp [get?_cons_self, optional?_cons_ne,
    optional?_cons_self _ _ _ _ _ MultiPart.ofJson?_toJson rfl]

@[simp] theorem Violation.Kind.ofJson?_toJson (kind : Violation.Kind) :
    ofJson? kind.toJson = some kind := by
  cases kind <;> rfl

@[simp] theorem Violation.ofJson?_toJson (violation : Violation) :
    ofJson? violation.toJson = some violation := by
  rw [toJson, ofJson?, fields?_obj _ _ _ rfl (by decide)]
  simp [get?_cons_self, get?_cons_ne, bool?]

theorem Payload.toJson_plain (payload : Payload) : payload.toJson.Plain := by
  have hpart := ofOption_plain MultiPart.toJson payload.multiPart MultiPart.toJson_plain
  simp [toJson, Plain, PlainMembers, Forward.toJson, Network.toJson, ShortChannelId.toJson,
    Amount.toJson, hpart]

theorem Violation.toJson_plain (violation : Violation) : violation.toJson.Plain := by
  simp [toJson, Plain, PlainMembers, Kind.toJson]

end Onion

/-- Every stored record is read back unchanged and determined by its text: a payment with all its
attempts, an onion payload, the report of an invalid one, and a node's address. -/
theorem records_read_back :
    (∀ payment : Payment, Payment.parse? payment.text = some payment) ∧
      Function.Injective Payment.text ∧
      ReadsBack Payment.toJson Payment.ofJson? ∧
      ReadsBack Onion.Payload.toJson Onion.Payload.ofJson? ∧
      ReadsBack Onion.Violation.toJson Onion.Violation.ofJson? ∧
      ReadsBack NodeAddress.toJson NodeAddress.ofJson? := by
  have hpayment := readsBack_of_plain Payment.ofJson?_toJson Payment.toJson_plain
  refine ⟨Payment.parse?_text, hpayment.injective, hpayment, ?payload, ?violation, ?address⟩
  case payload => exact readsBack_of_plain Onion.Payload.ofJson?_toJson Onion.Payload.toJson_plain
  case violation =>
    exact readsBack_of_plain Onion.Violation.ofJson?_toJson Onion.Violation.toJson_plain
  case address => exact readsBack_of_plain NodeAddress.ofJson?_toJson NodeAddress.toJson_plain

end Lightpay
