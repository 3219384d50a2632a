import Lightpay.Proofs.Lifecycle.Reports
import Lightpay.Sender

/-! Every record that can be read, also one that no operation would write. A settled attempt
makes the payment succeeded if the record names it. A record without that field names none,
and its payment is open to be paid again. -/

namespace Lightpay

open Lifecycle Json

namespace Payment

/-- The record says which attempt settled, and that attempt did settle. -/
def NamesSettled (payment : Payment) : Prop :=
  ∃ attempt, payment.settledId = some attempt.id ∧
    payment.attempt? attempt.id = some attempt ∧ attempt.Settled

theorem succeeded_iff_names (payment : Payment) :
    payment.status = .succeeded ↔ payment.NamesSettled := by
  have hnames : payment.NamesSettled ↔ payment.settledAttempt?.isSome := by
    simp only [NamesSettled, ← settledAttempt?_eq_some_iff, Option.isSome_iff_exists]
  rw [hnames, status]
  cases payment.settledAttempt?.isSome <;> cases payment.giveUpReason <;> simp

/-- The value leaves out which attempt settled. -/
def OmitsSettledId : Json → Prop
  | .obj members => "settled_attempt_id" ∉ members.map (·.1)
  | .arr items => items.length < 4
  | _ => True

theorem lookup_of_omits {json : Json} {fields : Fields} (homits : OmitsSettledId json)
    (hfields : json.fields? ["info", "htlcs", "failure_reason"] ["settled_attempt_id"] =
      some fields) : fields.lookup "settled_attempt_id" = none := by
  cases json with
  | obj members =>
    simp only [fields?, Option.ite_none_right_eq_some, Option.some.injEq] at hfields
    obtain ⟨_, rfl⟩ := hfields
    rw [List.lookup_eq_none_iff]
    intro member hmember
    rw [bne_iff_ne]
    intro hname
    apply homits
    rw [hname]
    exact List.mem_map_of_mem (List.mem_of_mem_filter hmember)
  | arr items =>
    simp only [fields?, Option.ite_none_right_eq_some, Option.some.injEq] at hfields
    obtain ⟨⟨hfew, _⟩, rfl⟩ := hfields
    -- The three required fields take up all the items.
    have hthree : items.length = 3 := Nat.le_antisymm (Nat.lt_succ_iff.1 homits) hfew
    obtain ⟨info, attempts, reason, rfl⟩ := List.length_eq_three.1 hthree
    rfl
  | _ => cases hfields

theorem settledId_of_omits {json : Json} {payment : Payment} (homits : OmitsSettledId json)
    (hread : ofJson? json = some payment) : payment.settledId = none := by
  simp only [ofJson?, bind, Option.bind_eq_some_iff] at hread
  obtain ⟨fields, hfields, info, _, attempts, _, reason, _, id, hid, heq⟩ := hread
  cases heq
  rw [Fields.optional?, lookup_of_omits homits hfields] at hid
  cases hid
  rfl

def unnamedJson (payment : Payment) : Json :=
  .obj [("info", payment.info.toJson), ("htlcs", .arr (payment.attempts.map Attempt.toJson)),
    ("failure_reason", Json.ofOption GiveUpReason.toJson payment.giveUpReason)]

theorem unnamedJson_plain (payment : Payment) : payment.unnamedJson.Plain := by
  have hplain := payment.toJson_plain
  simp only [toJson, Plain, PlainMembers] at hplain
  simp [unnamedJson, Plain, PlainMembers, hplain]

theorem ofJson?_unnamed (payment : Payment) :
    ofJson? payment.unnamedJson = some { payment with settledId := none } := by
  have hfields : payment.unnamedJson.fields? ["info", "htlcs", "failure_reason"]
      ["settled_attempt_id"] = some [("info", payment.info.toJson),
        ("htlcs", .arr (payment.attempts.map Attempt.toJson)),
        ("failure_reason", Json.ofOption GiveUpReason.toJson payment.giveUpReason)] := by
    simp [unnamedJson, fields?]
  have hnone : Fields.optional? [] "settled_attempt_id" Json.u64? = some none := rfl
  simp [ofJson?, hfields, get?_cons_self, get?_cons_ne, list?_map _ _ _ Attempt.ofJson?_toJson,
    optional?_cons_ne, optional?_cons_self _ _ _ _ _ GiveUpReason.ofJson?_toJson rfl, hnone]

theorem parse?_unnamed (payment : Payment) :
    parse? payment.unnamedJson.print = some { payment with settledId := none } := by
  rw [parse?, parse?_print _ payment.unnamedJson_plain, Option.bind_some, ofJson?_unnamed]

end Payment

namespace Lifecycle

variable (payment : Payment)

theorem start_alreadyPaid_iff (info : CreationInfo) :
    Lifecycle.start info (some payment) = .error .alreadyPaid ↔ payment.status = .succeeded := by
  simp only [Lifecycle.start]
  cases payment.status <;> simp

theorem register_alreadySucceeded_iff (info : AttemptInfo) :
    Lifecycle.register info (some payment) = .error .alreadySucceeded ↔
      payment.status = .succeeded := by
  simp only [Lifecycle.register, onStarted]
  cases payment.status with
  | succeeded | failed => simp
  | inFlight | unknown =>
    by_cases hknown : (payment.attempt? info.id).isSome <;> simp [hknown]

theorem giveUp_alreadySucceeded_iff (reason : GiveUpReason) :
    Lifecycle.giveUp reason (some payment) = .error .alreadySucceeded ↔
      payment.status = .succeeded := by
  simp only [Lifecycle.giveUp, onStarted]
  split <;> simp [*]

end Lifecycle

theorem Sender.resume_alreadySucceeded_iff {store : Store} {hash : PaymentHash}
    {payment : Payment} (hget : store.get? hash = .ok (some payment)) :
    Sender.resume store hash = .error .alreadySucceeded ↔ payment.status = .succeeded := by
  simp only [Sender.resume, Store.fetch, hget, bind, Except.bind, pure, Except.pure]
  cases payment.status <;> simp [throw, throwThe, MonadExceptOf.throw]

namespace Store

variable {store : Store} {text : String} {payment : Payment}

/-- All that is asked of the hash takes it for paid exactly under the condition. -/
structure PaidIff (store : Store) (hash : PaymentHash) (condition : Prop) : Prop where
  status : store.status hash = .ok .succeeded ↔ condition
  start : ∀ info : CreationInfo, info.hash = hash →
    ((store.step (.start info)).1 = .error .alreadyPaid ↔ condition)
  register : ∀ info,
    (store.step (.register hash info)).1 = .error .alreadySucceeded ↔ condition
  giveUp : ∀ reason,
    (store.step (.giveUp hash reason)).1 = .error .alreadySucceeded ↔ condition
  resume : Sender.resume store hash = .error .alreadySucceeded ↔ condition

theorem get?_of_parse? {hash : PaymentHash} (hparse : Payment.parse? text = some payment)
    (hstored : store.payments.get? hash = some text) :
    store.get? hash = .ok (some payment) := by
  simp only [get?, hstored, readPayment, hparse, Except.map]

theorem paidIff_succeeded (hget : store.get? payment.info.hash = .ok (some payment)) :
    store.PaidIff payment.info.hash (payment.status = .succeeded) := by
  have hown : ∀ found, some payment = some found → found.info.hash = payment.info.hash := by
    rintro found ⟨⟩
    rfl
  constructor
  · rw [status_of_get? hget, Except.ok.injEq]
    exact Iff.rfl
  · intro info hhash
    rw [← hhash] at hget hown
    rw [step_error_iff rfl hget hown]
    exact start_alreadyPaid_iff payment info
  · intro info
    rw [step_error_iff rfl hget hown]
    exact register_alreadySucceeded_iff payment info
  · intro reason
    rw [step_error_iff rfl hget hown]
    exact giveUp_alreadySucceeded_iff payment reason
  · exact Sender.resume_alreadySucceeded_iff hget

/-- Of every text that is read as a payment, the payment counts as paid exactly if the record
names an attempt and this attempt settled. A text that leaves the name out is open to be paid
again, whatever its attempts are. -/
theorem paid_iff_names (hparse : Payment.parse? text = some payment)
    (hstored : store.payments.get? payment.info.hash = some text) :
    (payment.status = .succeeded ↔ payment.NamesSettled) ∧
      store.PaidIff payment.info.hash payment.NamesSettled ∧
      (payment.NamesSettled → ∃ attempt ∈ payment.attempts, attempt.Settled) ∧
      ∀ json, Json.parse? text = some json → Payment.OmitsSettledId json →
        ¬ payment.NamesSettled := by
  have hstatus := payment.succeeded_iff_names
  refine ⟨hstatus, ?_, ?_, ?_⟩
  · rw [← propext hstatus]
    exact paidIff_succeeded (get?_of_parse? hparse hstored)
  · rintro ⟨attempt, _, hfound, hsettled⟩
    exact ⟨attempt, List.mem_of_find?_eq_some hfound, hsettled⟩
  · rintro json hjson homits ⟨attempt, hnamed, _⟩
    rw [Payment.parse?, hjson, Option.bind_some] at hparse
    cases hnamed.symm.trans (Payment.settledId_of_omits homits hparse)

end Store

namespace Sample

def unnamed : Payment := { settled with settledId := none }

def unnamedText : String := settled.unnamedJson.print

theorem parse?_unnamedText : Payment.parse? unnamedText = some unnamed :=
  Payment.parse?_unnamed settled

def holding (text : String) : Store := ⟨none, .insert .empty hash text⟩

theorem stored_holding (text : String) : (holding text).payments.get? hash = some text := by
  rw [holding, Store.Table.get?_insert, if_pos rfl]

theorem consistent_unnamed : (holding unnamedText).Consistent := by
  intro other
  by_cases hother : hash = other
  · subst hother
    refine ⟨some unnamed, Store.get?_of_parse? parse?_unnamedText (stored_holding _), ?_⟩
    rintro _ ⟨⟩
    rfl
  · refine ⟨none, ?_, nofun⟩
    rw [Store.get?, holding, Store.Table.get?_insert, if_neg hother]
    rfl

end Sample

theorem Store.paid_iff_names_settled :
    Sample.settled.NamesSettled ∧
      (Sample.holding Sample.settled.text).PaidIff Sample.hash Sample.settled.NamesSettled := by
  obtain ⟨hstatus, hpaid, _⟩ := paid_iff_names Sample.settled.parse?_text
    (Sample.stored_holding _)
  exact ⟨hstatus.1 (by decide), hpaid⟩

/-- A record with a settled attempt is read as in flight: nothing takes the hash for paid, its
sender is resumed, and once given up it is started again. -/
theorem Store.settled_unnamed :
    Payment.parse? Sample.unnamedText = some Sample.unnamed ∧
      (∃ attempt ∈ Sample.unnamed.attempts, attempt.Settled) ∧
      Sample.unnamed.status = .inFlight ∧
      (Sample.holding Sample.unnamedText).step (.start Sample.creation) =
        (.error .inFlight, Sample.holding Sample.unnamedText) ∧
      (Sample.holding Sample.unnamedText).Accepts (.register Sample.hash Sample.shard) ∧
      Sender.resume (Sample.holding Sample.unnamedText) Sample.hash =
        .ok ⟨Sample.hash, 1, .empty⟩ ∧
      (Sample.holding Sample.unnamedText).Accepts (.giveUp Sample.hash .timeout) ∧
      ((Sample.holding Sample.unnamedText).ran [.giveUp Sample.hash .timeout]).Accepts
        (.start Sample.creation) := by
  have hget : (Sample.holding Sample.unnamedText).get? Sample.hash = .ok (some Sample.unnamed) :=
    get?_of_parse? Sample.parse?_unnamedText (Sample.stored_holding _)
  have hgiveUp : Change Sample.hash (.giveUp Sample.hash .timeout) (some Sample.unnamed)
      { Sample.unnamed with giveUpReason := some .timeout } := .giveUp (by decide)
  have hgivenUp := get?_ran Sample.consistent_unnamed [.giveUp Sample.hash .timeout] hget
  rw [foldl_after_of_change _ hgiveUp, List.foldl_nil] at hgivenUp
  refine ⟨Sample.parse?_unnamedText, ⟨_, List.mem_singleton_self _, Sample.settlement, rfl⟩,
    rfl, step_refused rfl hget rfl, ?_, ?_, ?_, ?_⟩
  · exact (accepts_iff Sample.consistent_unnamed rfl hget).2 ⟨_, .register rfl rfl⟩
  · simp only [Sender.resume, Store.fetch, hget]
    rfl
  · exact (accepts_iff Sample.consistent_unnamed rfl hget).2 ⟨_, hgiveUp⟩
  · exact (accepts_iff (consistent_ran Sample.consistent_unnamed _) rfl hgivenUp).2
      ⟨_, .startAgain rfl rfl⟩

end Lightpay
