import Lightpay.Document.Payment
import Lightpay.Proofs.Text.Json

/-! A stored payment is read back unchanged, whatever its attempts, routes and
outcomes are. Each record is read back from its value; the text follows. -/

namespace Lightpay

namespace Json

@[simp] theorem u16?_ofU16 (n : UInt16) : u16? (ofU16 n) = some n := by
  have h : n.toNat < UInt16.size := n.toNat_lt_size
  simp [u16?, ofU16, nat?, h]

@[simp] theorem u32?_ofU32 (n : UInt32) : u32? (ofU32 n) = some n := by
  have h : n.toNat < UInt32.size := n.toNat_lt_size
  simp [u32?, ofU32, nat?, h]

@[simp] theorem u64?_ofU64 (n : UInt64) : u64? (ofU64 n) = some n := by
  have h : n.toNat < UInt64.size := n.toNat_lt_size
  simp [u64?, ofU64, nat?, h]

@[simp] theorem ofU16_plain (n : UInt16) : (ofU16 n).Plain := trivial

@[simp] theorem ofU32_plain (n : UInt32) : (ofU32 n).Plain := trivial

@[simp] theorem ofU64_plain (n : UInt64) : (ofU64 n).Plain := trivial

theorem fields?_obj (required defaulted : List String) (members : List (String × Json))
    (hnames : members.map (·.1) = required ++ defaulted) (hnodup : (required ++ defaulted).Nodup) :
    fields? required defaulted (.obj members) = some members := by
  have hknown : (members.filter fun m => m.1 ∈ required ++ defaulted) = members := by
    rw [List.filter_eq_self]
    intro m hm
    rw [← hnames]
    exact decide_eq_true (List.mem_map_of_mem hm)
  rw [fields?, hknown, if_pos (hnames ▸ hnodup)]

theorem get?_cons_self (name : String) (value : Json) (fields : Fields)
    (read : Json → Option α) : Fields.get? ((name, value) :: fields) name read = read value := by
  simp [Fields.get?]

theorem get?_cons_ne (name other : String) (value : Json) (fields : Fields)
    (read : Json → Option α) (h : name ≠ other) :
    Fields.get? ((other, value) :: fields) name read = Fields.get? fields name read := by
  simp [Fields.get?, List.lookup_cons, beq_false_of_ne h]

theorem optional?_cons_ne (name other : String) (value : Json) (fields : Fields)
    (read : Json → Option α) (h : name ≠ other) :
    Fields.optional? ((other, value) :: fields) name read =
      Fields.optional? fields name read := by
  simp [Fields.optional?, List.lookup_cons, beq_false_of_ne h]

theorem optional?_cons_self (name : String) (fields : Fields) (read : Json → Option α)
    (write : α → Json) (value : Option α) (hread : ∀ a, read (write a) = some a)
    (hnull : read .null = none) :
    Fields.optional? ((name, ofOption write value) :: fields) name read = some value := by
  cases value with
  | none => simp [Fields.optional?, ofOption]
  | some a =>
    have hsome := hread a
    have hfield : Fields.optional? ((name, write a) :: fields) name read =
        (read (write a)).map some := by
      cases hwrite : write a with
      | null => simp [hwrite, hnull] at hsome
      | _ => simp [Fields.optional?]
    rw [ofOption, hfield, hsome, Option.map_some]

theorem ofOption_plain (write : α → Json) (value : Option α) (h : ∀ a, (write a).Plain) :
    (ofOption write value).Plain := by
  cases value with
  | none => trivial
  | some a => exact h a

theorem list?_map (read : Json → Option α) (write : α → Json) (values : List α)
    (h : ∀ a, read (write a) = some a) : list? read (.arr (values.map write)) = some values := by
  rw [list?]
  induction values with
  | nil => rfl
  | cons a values ih => simp [List.mapM_cons, h a, ih]

theorem plainItems_map (write : α → Json) (values : List α) (h : ∀ a, (write a).Plain) :
    PlainItems (values.map write) := by
  induction values with
  | nil => trivial
  | cons a values ih => exact ⟨h a, ih⟩

end Json

open Json

@[simp] theorem ShortChannelId.ofJson?_toJson (id : ShortChannelId) :
    ofJson? id.toJson = some id := by
  rw [toJson, ofJson?, fields?_obj _ _ _ rfl (by decide)]
  simp [get?_cons_self, get?_cons_ne]

@[simp] theorem Amount.ofJson?_toJson (amount : Amount) : ofJson? amount.toJson = some amount := by
  simp [ofJson?, toJson]

@[simp] theorem Bytes.ofJson?_toJson (bytes : Bytes) : ofJson? (toJson bytes) = some bytes := by
  simp [ofJson?, toJson, str?, Except.toOption]

@[simp] theorem Bytes32.ofJson?_toJson (value : Bytes32) : ofJson? value.toJson = some value := by
  simp [ofJson?, toJson, str?, Except.toOption]

@[simp] theorem PaymentHash.ofJson?_toJson (hash : PaymentHash) :
    ofJson? hash.toJson = some hash := by
  simp [ofJson?, toJson]

@[simp] theorem Preimage.ofJson?_toJson (preimage : Preimage) :
    ofJson? preimage.toJson = some preimage := by
  simp [ofJson?, toJson]

@[simp] theorem PublicKey.ofJson?_toJson (key : PublicKey) : ofJson? key.toJson = some key := by
  simp [ofJson?, toJson, str?]

@[simp] theorem SecretKey.ofJson?_toJson (key : SecretKey) : ofJson? key.toJson = some key := by
  simp [ofJson?, toJson, str?]

@[simp] theorem Onion.MultiPart.ofJson?_toJson (part : Onion.MultiPart) :
    ofJson? part.toJson = some part := by
  rw [toJson, ofJson?, fields?_obj _ _ _ rfl (by decide)]
  simp [get?_cons_self, get?_cons_ne]

@[simp] theorem Hop.ofJson?_toJson (hop : Hop) : ofJson? hop.toJson = some hop := by
  rw [toJson, ofJson?, fields?_obj _ _ _ rfl (by decide)]
  simp [get?_cons_self, get?_cons_ne, optional?_cons_ne, optional?_cons_self _ _ _ _ _
    Onion.MultiPart.ofJson?_toJson rfl]

@[simp] theorem Route.ofJson?_toJson (route : Route) : ofJson? route.toJson = some route := by
  rw [toJson, ofJson?, fields?_obj _ _ _ rfl (by decide)]
  simp [get?_cons_self, get?_cons_ne, list?_map _ _ _ Hop.ofJson?_toJson]

@[simp] theorem GiveUpReason.ofJson?_toJson (reason : GiveUpReason) :
    ofJson? reason.toJson = some reason := by
  cases reason <;> rfl

@[simp] theorem FailureCause.ofJson?_toJson (cause : FailureCause) :
    ofJson? cause.toJson = some cause := by
  cases cause <;> rfl

@[simp] theorem CreationInfo.ofJson?_toJson (info : CreationInfo) :
    ofJson? info.toJson = some info := by
  rw [toJson, ofJson?, fields?_obj _ _ _ rfl (by decide)]
  simp [get?_cons_self, get?_cons_ne]

@[simp] theorem AttemptInfo.ofJson?_toJson (info : AttemptInfo) :
    ofJson? info.toJson = some info := by
  rw [toJson, ofJson?, fields?_obj _ _ _ rfl (by decide)]
  simp [get?_cons_self, get?_cons_ne]

@[simp] theorem AttemptFailure.ofJson?_toJson (failure : AttemptFailure) :
    ofJson? failure.toJson = some failure := by
  rw [toJson, ofJson?, fields?_obj _ _ _ rfl (by decide)]
  simp [get?_cons_self, get?_cons_ne, optional?_cons_ne,
    optional?_cons_self _ _ _ _ _ u32?_ofU32 rfl]

@[simp] theorem Settlement.ofJson?_toJson (settlement : Settlement) :
    ofJson? settlement.toJson = some settlement := by
  rw [toJson, ofJson?, fields?_obj _ _ _ rfl (by decide)]
  simp [get?_cons_self, get?_cons_ne]

@[simp] theorem Outcome.ofJson?_toJson (outcome : Outcome) :
    ofJson? outcome.toJson = some outcome := by
  cases outcome with
  | pending => rfl
  | failed failure => simp [toJson, ofJson?]
  | settled settlement => simp [toJson, ofJson?]

@[simp] theorem Attempt.ofJson?_toJson (attempt : Attempt) :
    ofJson? attempt.toJson = some attempt := by
  rw [toJson, ofJson?, fields?_obj _ _ _ rfl (by decide)]
  simp [get?_cons_self, get?_cons_ne]

@[simp] theorem Payment.ofJson?_toJson (payment : Payment) :
    ofJson? payment.toJson = some payment := by
  rw [toJson, ofJson?, fields?_obj _ _ _ rfl (by decide)]
  simp [get?_cons_self, get?_cons_ne, list?_map _ _ _ Attempt.ofJson?_toJson, optional?_cons_ne,
    optional?_cons_self _ _ _ _ _ GiveUpReason.ofJson?_toJson rfl,
    optional?_cons_self _ _ _ _ _ u64?_ofU64 rfl]

theorem Onion.MultiPart.toJson_plain (part : Onion.MultiPart) : part.toJson.Plain := by
  simp [toJson, Plain, PlainMembers, Bytes32.toJson, Amount.toJson]

theorem Hop.toJson_plain (hop : Hop) : hop.toJson.Plain := by
  have hpart := ofOption_plain _ hop.multiPart Onion.MultiPart.toJson_plain
  simp [toJson, Plain, PlainMembers, PublicKey.toJson, ShortChannelId.toJson, Amount.toJson,
    hpart]

theorem AttemptInfo.toJson_plain (info : AttemptInfo) : info.toJson.Plain := by
  have hhops := plainItems_map Hop.toJson info.route.hops Hop.toJson_plain
  simp [toJson, Plain, PlainMembers, SecretKey.toJson, Route.toJson, PublicKey.toJson,
    Amount.toJson, hhops]

theorem Outcome.toJson_plain (outcome : Outcome) : outcome.toJson.Plain := by
  cases outcome with
  | pending => trivial
  | failed failure =>
    have hsource := ofOption_plain Json.ofU32 failure.source ofU32_plain
    simp [toJson, Plain, PlainMembers, AttemptFailure.toJson, FailureCause.toJson, hsource]
  | settled settlement =>
    simp [toJson, Plain, PlainMembers, Settlement.toJson, Preimage.toJson, Bytes32.toJson]

theorem Payment.toJson_plain (payment : Payment) : payment.toJson.Plain := by
  have hattempts : PlainItems (payment.attempts.map Attempt.toJson) :=
    plainItems_map _ _ fun attempt => by
      simp [Attempt.toJson, Plain, PlainMembers, attempt.info.toJson_plain,
        attempt.outcome.toJson_plain]
  have hreason := ofOption_plain GiveUpReason.toJson payment.giveUpReason fun _ => trivial
  have hsettled := ofOption_plain Json.ofU64 payment.settledId ofU64_plain
  simp [toJson, Plain, PlainMembers, CreationInfo.toJson, PaymentHash.toJson, Bytes32.toJson,
    Amount.toJson, Bytes.toJson, hattempts, hreason, hsettled]

@[simp] theorem Payment.parse?_text (payment : Payment) : parse? payment.text = some payment := by
  rw [parse?, text, parse?_print _ payment.toJson_plain, Option.bind_some,
    Payment.ofJson?_toJson]

end Lightpay
