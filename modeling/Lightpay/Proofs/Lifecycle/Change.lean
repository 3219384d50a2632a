import Lightpay.Lifecycle
import Lightpay.Proofs.Payment.Attempts

/-! Everything an operation can do to a stored payment, guards included. Later
proofs go by the cases of `Change` and do not open the transitions again. -/

namespace Lightpay.Lifecycle

/-- The hash an operation writes under and its transition there. Reads have none, and
neither has deletion, which goes over all hashes. -/
def Op.transition? : Op → Option (PaymentHash × Transition)
  | .start info => some (info.hash, Lifecycle.start info)
  | .register hash info => some (hash, Lifecycle.register info)
  | .failAttempt hash id failure => some (hash, Lifecycle.failAttempt id failure)
  | .giveUp hash reason => some (hash, Lifecycle.giveUp reason)
  | .settle hash id settlement => some (hash, Lifecycle.settle hash id settlement)
  | .fetch _ | .status _ | .list | .listInFlight | .delete => none

/-- The outcome an operation reports, and the attempt it reports it for. -/
def Op.outcome? : Op → Option (PaymentHash × UInt64 × Outcome)
  | .failAttempt hash id failure => some (hash, id, .failed failure)
  | .settle hash id settlement => some (hash, id, .settled settlement)
  | _ => none

/-- The operation turns what is stored under the hash into the payment. -/
inductive Change (hash : PaymentHash) : Op → Option Payment → Payment → Prop
  | startFirst {info : CreationInfo} (hhash : info.hash = hash) :
    Change hash (.start info) none (.fresh info)
  | startAgain {info : CreationInfo} {payment : Payment} (hhash : info.hash = hash)
      (hfailed : payment.status = .failed) :
    Change hash (.start info) (some payment) (.fresh info)
  | register {info : AttemptInfo} {payment : Payment} (hinFlight : payment.status = .inFlight)
      (hnew : payment.attempt? info.id = none) :
    Change hash (.register hash info) (some payment) (payment.append ⟨info, .pending⟩)
  | failAttempt {id : UInt64} {failure : AttemptFailure} {payment : Payment} {info : AttemptInfo}
      (hpending : payment.attempt? id = some ⟨info, .pending⟩) :
    Change hash (.failAttempt hash id failure) (some payment)
      (payment.setOutcome id (.failed failure))
  | giveUp {reason : GiveUpReason} {payment : Payment} (hopen : payment.status ≠ .succeeded) :
    Change hash (.giveUp hash reason) (some payment) { payment with giveUpReason := some reason }
  | settle {id : UInt64} {settlement : Settlement} {payment : Payment} {info : AttemptInfo}
      (hpreimage : settlement.preimage.Matches hash)
      (hpending : payment.attempt? id = some ⟨info, .pending⟩) :
    Change hash (.settle hash id settlement) (some payment)
      { (payment.setOutcome id (.settled settlement)).recordSettle id with giveUpReason := none }

theorem status_ne_unknown (payment : Payment) : payment.status ≠ .unknown := by
  rw [Payment.status]
  split
  · exact Status.noConfusion
  · split <;> exact Status.noConfusion

theorem resolve_ok_iff (payment updated : Payment) (id : UInt64) (outcome : Outcome) :
    resolve payment id outcome = .ok updated ↔
      (∃ info, payment.attempt? id = some ⟨info, .pending⟩) ∧
        payment.setOutcome id outcome = updated := by
  rw [resolve]
  cases hattempt : payment.attempt? id with
  | none => simp
  | some attempt =>
    obtain ⟨info, recorded⟩ := attempt
    cases recorded <;> simp [Attempt.Resolved]

theorem start_ok_iff (hash : PaymentHash) (info : CreationInfo) (current : Option Payment)
    (updated : Payment) (hhash : info.hash = hash) :
    Lifecycle.start info current = .ok updated ↔ Change hash (.start info) current updated := by
  constructor
  · intro h
    cases current with
    | none =>
      cases h
      exact .startFirst hhash
    | some payment =>
      cases hstatus : payment.status with
      | failed =>
        simp only [Lifecycle.start, hstatus, Except.ok.injEq] at h
        exact h ▸ .startAgain hhash hstatus
      | unknown => exact absurd hstatus (status_ne_unknown payment)
      | inFlight => simp [Lifecycle.start, hstatus] at h
      | succeeded => simp [Lifecycle.start, hstatus] at h
  · intro h
    cases h with
    | startFirst => rfl
    | startAgain _ hfailed => simp [Lifecycle.start, hfailed]

theorem register_ok_iff (hash : PaymentHash) (info : AttemptInfo) (current : Option Payment)
    (updated : Payment) :
    Lifecycle.register info current = .ok updated ↔
      Change hash (.register hash info) current updated := by
  constructor
  · intro h
    cases current with
    | none => cases h
    | some payment =>
      cases hstatus : payment.status with
      | inFlight =>
        cases hnew : payment.attempt? info.id with
        | none =>
          simp [Lifecycle.register, onStarted, hstatus, hnew] at h
          exact h ▸ .register hstatus hnew
        | some attempt => simp [Lifecycle.register, onStarted, hstatus, hnew] at h
      | unknown => exact absurd hstatus (status_ne_unknown payment)
      | failed => simp [Lifecycle.register, onStarted, hstatus] at h
      | succeeded => simp [Lifecycle.register, onStarted, hstatus] at h
  · intro h
    cases h with
    | register hinFlight hnew => simp [Lifecycle.register, onStarted, hinFlight, hnew]

theorem failAttempt_ok_iff (hash : PaymentHash) (id : UInt64) (failure : AttemptFailure)
    (current : Option Payment) (updated : Payment) :
    Lifecycle.failAttempt id failure current = .ok updated ↔
      Change hash (.failAttempt hash id failure) current updated := by
  constructor
  · intro h
    cases current with
    | none => cases h
    | some payment =>
      obtain ⟨⟨info, hpending⟩, rfl⟩ := (resolve_ok_iff ..).1 h
      exact .failAttempt hpending
  · intro h
    cases h with
    | failAttempt hpending => exact (resolve_ok_iff ..).2 ⟨⟨_, hpending⟩, rfl⟩

theorem giveUp_ok_iff (hash : PaymentHash) (reason : GiveUpReason) (current : Option Payment)
    (updated : Payment) :
    Lifecycle.giveUp reason current = .ok updated ↔
      Change hash (.giveUp hash reason) current updated := by
  constructor
  · intro h
    cases current with
    | none => cases h
    | some payment =>
      by_cases hsucceeded : payment.status = .succeeded
      · simp [Lifecycle.giveUp, onStarted, hsucceeded] at h
      · simp only [Lifecycle.giveUp, onStarted, if_neg hsucceeded, Except.ok.injEq] at h
        exact h ▸ .giveUp hsucceeded
  · intro h
    cases h with
    | giveUp hopen => simp [Lifecycle.giveUp, onStarted, hopen]

theorem settle_ok_iff (hash : PaymentHash) (id : UInt64) (settlement : Settlement)
    (current : Option Payment) (updated : Payment) :
    Lifecycle.settle hash id settlement current = .ok updated ↔
      Change hash (.settle hash id settlement) current updated := by
  constructor
  · intro h
    cases current with
    | none => cases h
    | some payment =>
      by_cases hpreimage : settlement.preimage.Matches hash
      · cases hresolve : resolve payment id (.settled settlement) with
        | error e =>
          simp [Lifecycle.settle, onStarted, hpreimage, hresolve, bind, Except.bind] at h
        | ok resolved =>
          obtain ⟨⟨info, hpending⟩, rfl⟩ := (resolve_ok_iff ..).1 hresolve
          simp only [Lifecycle.settle, onStarted, hpreimage, hresolve, bind, Except.bind,
            pure, Except.pure, not_true_eq_false, ↓reduceIte, Except.ok.injEq] at h
          exact h ▸ .settle hpreimage hpending
      · simp [Lifecycle.settle, onStarted, hpreimage] at h
  · intro h
    cases h with
    | settle hpreimage hpending =>
      have hresolve := (resolve_ok_iff _ _ _ (.settled settlement)).2 ⟨⟨_, hpending⟩, rfl⟩
      simp only [Lifecycle.settle, onStarted, hpreimage, hresolve, bind, Except.bind,
        pure, Except.pure, not_true_eq_false, ↓reduceIte]

/-- A transition carries out exactly the changes of its operation. -/
theorem transition_ok_iff {op : Op} {hash : PaymentHash} {transition : Transition}
    (hop : op.transition? = some (hash, transition)) (current : Option Payment)
    (updated : Payment) : transition current = .ok updated ↔ Change hash op current updated := by
  cases op with
  | start info =>
    cases hop
    exact start_ok_iff _ info current updated rfl
  | register hash info =>
    cases hop
    exact register_ok_iff hash info current updated
  | failAttempt hash id failure =>
    cases hop
    exact failAttempt_ok_iff hash id failure current updated
  | giveUp hash reason =>
    cases hop
    exact giveUp_ok_iff hash reason current updated
  | settle hash id settlement =>
    cases hop
    exact settle_ok_iff hash id settlement current updated
  | fetch hash => cases hop
  | status hash => cases hop
  | list => cases hop
  | listInFlight => cases hop
  | delete => cases hop

theorem transition_of_change {hash : PaymentHash} {op : Op} {current : Option Payment}
    {updated : Payment} (h : Change hash op current updated) :
    ∃ transition, op.transition? = some (hash, transition) := by
  cases h with
  | startFirst hhash =>
    subst hhash
    exact ⟨_, rfl⟩
  | startAgain hhash =>
    subst hhash
    exact ⟨_, rfl⟩
  | register => exact ⟨_, rfl⟩
  | failAttempt => exact ⟨_, rfl⟩
  | giveUp => exact ⟨_, rfl⟩
  | settle => exact ⟨_, rfl⟩

theorem info_hash_of_change {hash : PaymentHash} {op : Op} {current : Option Payment}
    {updated : Payment} (h : Change hash op current updated)
    (hcurrent : ∀ payment, current = some payment → payment.info.hash = hash) :
    updated.info.hash = hash := by
  cases h with
  | startFirst hhash => exact hhash
  | startAgain hhash => exact hhash
  | @register _ payment => exact hcurrent payment rfl
  | @failAttempt _ _ payment => exact hcurrent payment rfl
  | @giveUp _ payment => exact hcurrent payment rfl
  | @settle _ _ payment => exact hcurrent payment rfl

theorem kept_setOutcome {payment : Payment} (hids : payment.DistinctIds) {id : UInt64}
    {info : AttemptInfo} (hpending : payment.attempt? id = some ⟨info, .pending⟩)
    (outcome : Outcome) {attempt : Attempt} (hmem : attempt ∈ payment.attempts) :
    attempt ∈ (payment.setOutcome id outcome).attempts ∨
      attempt.id = id ∧ attempt.outcome = .pending ∧
        ⟨attempt.info, outcome⟩ ∈ (payment.setOutcome id outcome).attempts := by
  by_cases hid : attempt.id = id
  · subst hid
    cases (Payment.attempt?_of_mem hids hmem).symm.trans hpending
    exact .inr ⟨rfl, rfl, (Payment.mem_setOutcome hids hpending outcome _).2 (.inl rfl)⟩
  · exact .inl ((Payment.mem_setOutcome hids hpending outcome attempt).2 (.inr ⟨hmem, hid⟩))

/-- Except for a new start, an attempt stays as it is, or it was pending and gets the outcome
that the operation reports for it. -/
theorem attempt_kept {hash : PaymentHash} {op : Op} {payment updated : Payment}
    (h : Change hash op (some payment) updated) (hstart : ∀ info, op ≠ .start info)
    (hids : payment.DistinctIds) {attempt : Attempt} (hmem : attempt ∈ payment.attempts) :
    attempt ∈ updated.attempts ∨
      ∃ outcome, op.outcome? = some (hash, attempt.id, outcome) ∧ attempt.outcome = .pending ∧
        ⟨attempt.info, outcome⟩ ∈ updated.attempts := by
  cases h with
  | startAgain => exact absurd rfl (hstart _)
  | register => exact .inl (List.mem_append_left _ hmem)
  | giveUp => exact .inl hmem
  | @failAttempt id failure _ _ hpending =>
    refine (kept_setOutcome hids hpending (.failed failure) hmem).imp_right ?_
    rintro ⟨rfl, hold, hnew⟩
    exact ⟨_, rfl, hold, hnew⟩
  | @settle id settlement _ _ _ hpending =>
    refine (kept_setOutcome hids hpending (.settled settlement) hmem).imp_right ?_
    rintro ⟨rfl, hold, hnew⟩
    exact ⟨_, rfl, hold, hnew⟩

theorem attempt_origin {hash : PaymentHash} {op : Op} {current : Option Payment}
    {updated : Payment} (h : Change hash op current updated) {attempt : Attempt}
    (hmem : attempt ∈ updated.attempts) :
    (∃ payment old, current = some payment ∧ old ∈ payment.attempts ∧
      old.info = attempt.info) ∨ op = .register hash attempt.info := by
  have horigin : ∀ (payment : Payment) (id : UInt64) (outcome : Outcome),
      attempt ∈ (payment.setOutcome id outcome).attempts →
        ∃ old ∈ payment.attempts, old.info = attempt.info := by
    intro payment id outcome hset
    have hinfo := List.mem_map_of_mem (f := (·.info)) hset
    rw [Payment.map_info_setOutcome] at hinfo
    exact List.mem_map.1 hinfo
  cases h with
  | startFirst => cases hmem
  | startAgain => cases hmem
  | @register info payment =>
    rcases (Payment.mem_append ..).1 hmem with hold | rfl
    · exact .inl ⟨payment, attempt, rfl, hold, rfl⟩
    · exact .inr rfl
  | @failAttempt id failure payment =>
    obtain ⟨old, hold, hinfo⟩ := horigin payment id (.failed failure) hmem
    exact .inl ⟨payment, old, rfl, hold, hinfo⟩
  | @giveUp _ payment => exact .inl ⟨payment, attempt, rfl, hmem, rfl⟩
  | @settle id settlement payment =>
    obtain ⟨old, hold, hinfo⟩ := horigin payment id (.settled settlement) hmem
    exact .inl ⟨payment, old, rfl, hold, hinfo⟩

theorem attempt?_of_outcome? {hash : PaymentHash} {op : Op} {id : UInt64} {outcome : Outcome}
    {current : Option Payment} {updated : Payment}
    (hop : op.outcome? = some (hash, id, outcome)) (h : Change hash op current updated) :
    ∃ payment info, current = some payment ∧ payment.attempt? id = some ⟨info, .pending⟩ ∧
      updated.attempt? id = some ⟨info, outcome⟩ ∧
      ∀ other ≠ id, updated.attempt? other = payment.attempt? other := by
  have hset : ∀ (payment : Payment) (info : AttemptInfo),
      payment.attempt? id = some ⟨info, .pending⟩ →
        (payment.setOutcome id outcome).attempt? id = some ⟨info, outcome⟩ ∧
          ∀ other ≠ id, (payment.setOutcome id outcome).attempt? other =
            payment.attempt? other := by
    intro payment info hpending
    constructor
    · rw [Payment.attempt?_setOutcome, if_pos rfl, hpending, Option.map_some]
    · intro other hother
      rw [Payment.attempt?_setOutcome, if_neg hother]
  cases h with
  | startFirst => cases hop
  | startAgain => cases hop
  | register => cases hop
  | giveUp => cases hop
  | @failAttempt _ _ payment info hpending =>
    cases hop
    exact ⟨payment, info, rfl, hpending, hset payment info hpending⟩
  | @settle _ _ payment info _ hpending =>
    cases hop
    exact ⟨payment, info, rfl, hpending, hset payment info hpending⟩

end Lightpay.Lifecycle
