import Lightpay.Proofs.Lifecycle.Run

/-! The invariant of stored payments, and what it makes of their status. The status
is derived from three fields that different operations change, so the conjuncts
hold together or not at all. -/

namespace Lightpay

/-- What holds of every payment stored under the hash. -/
structure Payment.Sound (hash : PaymentHash) (payment : Payment) : Prop where
  hash_eq : payment.info.hash = hash
  distinct_ids : payment.DistinctIds
  preimage_hash : ∀ attempt ∈ payment.attempts, ∀ settlement,
    attempt.outcome = .settled settlement → settlement.preimage.hash = hash
  settledId_isSome : payment.settledId.isSome ↔ ∃ attempt ∈ payment.attempts, attempt.Settled
  settledId_settled : ∀ id, payment.settledId = some id →
    ∃ attempt ∈ payment.attempts, attempt.id = id ∧ attempt.Settled
  not_both : payment.giveUpReason = none ∨ payment.settledId = none

namespace Payment

variable {hash : PaymentHash} {payment : Payment}

theorem settledAttempt?_isSome (h : payment.Sound hash) :
    payment.settledAttempt?.isSome ↔ ∃ attempt ∈ payment.attempts, attempt.Settled := by
  rw [← h.settledId_isSome, settledAttempt?]
  cases hid : payment.settledId with
  | none => simp
  | some id =>
    obtain ⟨attempt, hmem, rfl, hsettled⟩ := h.settledId_settled id hid
    rw [Option.bind_some, attempt?_of_mem h.distinct_ids hmem]
    simp [Option.filter, attempt.settlement?_isSome.2 hsettled]

theorem settledAttempt?_isSome_eq_false (h : payment.Sound hash) :
    payment.settledAttempt?.isSome = false ↔
      ∀ attempt ∈ payment.attempts, ¬ attempt.Settled := by
  rw [← Bool.not_eq_true, settledAttempt?_isSome h]
  simp

theorem status_eq_succeeded_iff (h : payment.Sound hash) :
    payment.status = .succeeded ↔ ∃ attempt ∈ payment.attempts, attempt.Settled := by
  rw [← settledAttempt?_isSome h, status]
  cases payment.settledAttempt?.isSome <;> cases payment.giveUpReason <;> simp

theorem status_eq_failed_iff (h : payment.Sound hash) :
    payment.status = .failed ↔
      (∀ attempt ∈ payment.attempts, ¬ attempt.Settled) ∧ payment.giveUpReason.isSome := by
  rw [← settledAttempt?_isSome_eq_false h, status]
  cases payment.settledAttempt?.isSome <;> cases payment.giveUpReason <;> simp

theorem status_eq_inFlight_iff (h : payment.Sound hash) :
    payment.status = .inFlight ↔
      (∀ attempt ∈ payment.attempts, ¬ attempt.Settled) ∧ payment.giveUpReason = none := by
  rw [← settledAttempt?_isSome_eq_false h, status]
  cases payment.settledAttempt?.isSome <;> cases payment.giveUpReason <;> simp

/-- Attempts need not be looked at: the settlement and the reason to give up decide. -/
theorem status_of_sound (h : payment.Sound hash) :
    payment.status = if payment.settledId.isSome then .succeeded
      else if payment.giveUpReason.isSome then .failed else .inFlight := by
  have hsettled : payment.settledAttempt?.isSome = payment.settledId.isSome := by
    rw [Bool.eq_iff_iff, settledAttempt?_isSome h, h.settledId_isSome]
  rw [status, hsettled]

theorem sound_fresh (info : CreationInfo) (hhash : info.hash = hash) :
    (fresh info).Sound hash := by
  constructor
  · exact hhash
  · exact List.nodup_nil
  · intro attempt hmem
    cases hmem
  · simp [fresh]
  · intro id hid
    cases hid
  · exact .inl rfl

theorem sound_append (h : payment.Sound hash) (info : AttemptInfo)
    (hnew : payment.attempt? info.id = none) :
    (payment.append ⟨info, .pending⟩).Sound hash := by
  have hpending : ∀ attempt : Attempt, attempt = ⟨info, .pending⟩ → ¬ attempt.Settled := by
    rintro attempt rfl ⟨settlement, hsettled⟩
    cases hsettled
  constructor
  · exact h.hash_eq
  · exact distinctIds_append h.distinct_ids hnew
  · intro attempt hmem settlement hsettled
    rcases (mem_append ..).1 hmem with hmem | hmem
    · exact h.preimage_hash attempt hmem settlement hsettled
    · exact absurd ⟨settlement, hsettled⟩ (hpending attempt hmem)
  · rw [append, h.settledId_isSome]
    constructor
    · rintro ⟨attempt, hmem, hsettled⟩
      exact ⟨attempt, List.mem_append_left _ hmem, hsettled⟩
    · rintro ⟨attempt, hmem, hsettled⟩
      rcases (mem_append ..).1 hmem with hmem | hmem
      · exact ⟨attempt, hmem, hsettled⟩
      · exact absurd hsettled (hpending attempt hmem)
  · intro id hid
    obtain ⟨attempt, hmem, hsettled⟩ := h.settledId_settled id hid
    exact ⟨attempt, List.mem_append_left _ hmem, hsettled⟩
  · exact h.not_both

theorem id_ne_of_settled (h : payment.Sound hash) {id : UInt64} {info : AttemptInfo}
    (hpending : payment.attempt? id = some ⟨info, .pending⟩) {attempt : Attempt}
    (hmem : attempt ∈ payment.attempts) (hsettled : attempt.Settled) : attempt.id ≠ id := by
  rintro rfl
  obtain ⟨settlement, houtcome⟩ := hsettled
  cases (attempt?_of_mem h.distinct_ids hmem).symm.trans hpending
  cases houtcome

theorem preimage_hash_setOutcome (h : payment.Sound hash) {id : UInt64} {info : AttemptInfo}
    (hpending : payment.attempt? id = some ⟨info, .pending⟩) (outcome : Outcome)
    (houtcome : ∀ settlement, outcome = .settled settlement → settlement.preimage.hash = hash) :
    ∀ attempt ∈ (payment.setOutcome id outcome).attempts, ∀ settlement,
      attempt.outcome = .settled settlement → settlement.preimage.hash = hash := by
  intro attempt hmem settlement hsettled
  rcases (mem_setOutcome h.distinct_ids hpending outcome attempt).1 hmem with rfl | ⟨hmem, _⟩
  · exact houtcome settlement hsettled
  · exact h.preimage_hash attempt hmem settlement hsettled

theorem sound_failed (h : payment.Sound hash) {id : UInt64} {info : AttemptInfo}
    (hpending : payment.attempt? id = some ⟨info, .pending⟩) (failure : AttemptFailure) :
    (payment.setOutcome id (.failed failure)).Sound hash := by
  have hmem := mem_setOutcome h.distinct_ids hpending (.failed failure)
  constructor
  · exact h.hash_eq
  · exact distinctIds_setOutcome id _ h.distinct_ids
  · exact preimage_hash_setOutcome h hpending _ nofun
  · rw [setOutcome, h.settledId_isSome]
    constructor
    · rintro ⟨attempt, hold, hsettled⟩
      exact ⟨attempt, (hmem attempt).2 (.inr ⟨hold, id_ne_of_settled h hpending hold hsettled⟩),
        hsettled⟩
    · rintro ⟨attempt, hnew, hsettled⟩
      rcases (hmem attempt).1 hnew with rfl | ⟨hold, _⟩
      · obtain ⟨settlement, houtcome⟩ := hsettled
        cases houtcome
      · exact ⟨attempt, hold, hsettled⟩
  · intro first hfirst
    obtain ⟨attempt, hold, hid, hsettled⟩ := h.settledId_settled first hfirst
    exact ⟨attempt, (hmem attempt).2 (.inr ⟨hold, id_ne_of_settled h hpending hold hsettled⟩),
      hid, hsettled⟩
  · exact h.not_both

theorem sound_givenUp (h : payment.Sound hash) (hopen : payment.status ≠ .succeeded)
    (reason : GiveUpReason) : ({ payment with giveUpReason := some reason }).Sound hash := by
  constructor
  · exact h.hash_eq
  · exact h.distinct_ids
  · exact h.preimage_hash
  · exact h.settledId_isSome
  · exact h.settledId_settled
  · refine .inr (Option.not_isSome_iff_eq_none.1 fun hsome => hopen ?_)
    exact (status_eq_succeeded_iff h).2 (h.settledId_isSome.1 hsome)

theorem sound_settled (h : payment.Sound hash) {id : UInt64} {info : AttemptInfo}
    (hpending : payment.attempt? id = some ⟨info, .pending⟩) (settlement : Settlement)
    (hpreimage : settlement.preimage.Matches hash) :
    ({ (payment.setOutcome id (.settled settlement)).recordSettle id with
      giveUpReason := none }).Sound hash := by
  have hmem := mem_setOutcome h.distinct_ids hpending (.settled settlement)
  have hnew := (hmem ⟨info, .settled settlement⟩).2 (.inl rfl)
  constructor
  · exact h.hash_eq
  · exact distinctIds_setOutcome id _ h.distinct_ids
  · refine preimage_hash_setOutcome h hpending _ fun other hother => ?_
    cases hother
    exact hpreimage
  · exact iff_of_true rfl ⟨_, hnew, settlement, rfl⟩
  · intro first hfirst
    rw [recordSettle, Option.some.injEq] at hfirst
    change payment.settledId.getD id = first at hfirst
    cases hid : payment.settledId with
    | none =>
      rw [hid, Option.getD_none] at hfirst
      subst hfirst
      have hid : info.id = id := id_of_attempt? hpending
      exact ⟨_, hnew, hid, settlement, rfl⟩
    | some earlier =>
      rw [hid, Option.getD_some] at hfirst
      subst hfirst
      -- The settlement that came first is of another attempt, for this one was pending.
      obtain ⟨attempt, hold, hearlier, hsettled⟩ := h.settledId_settled earlier hid
      exact ⟨attempt, (hmem attempt).2 (.inr ⟨hold, id_ne_of_settled h hpending hold hsettled⟩),
        hearlier, hsettled⟩
  · exact .inl rfl

end Payment

namespace Lifecycle

variable {hash : PaymentHash} {op : Op} {current : Option Payment}

theorem sound_change {updated : Payment} (h : Change hash op current updated)
    (hcurrent : ∀ payment, current = some payment → payment.Sound hash) :
    updated.Sound hash := by
  cases h with
  | startFirst hhash => exact Payment.sound_fresh _ hhash
  | startAgain hhash => exact Payment.sound_fresh _ hhash
  | @register info payment _ hnew => exact Payment.sound_append (hcurrent payment rfl) info hnew
  | @failAttempt _ failure payment _ hpending =>
    exact Payment.sound_failed (hcurrent payment rfl) hpending failure
  | @giveUp reason payment hopen => exact Payment.sound_givenUp (hcurrent payment rfl) hopen reason
  | @settle _ settlement payment _ hpreimage hpending =>
    exact Payment.sound_settled (hcurrent payment rfl) hpending settlement hpreimage

theorem sound_after (hcurrent : ∀ payment, current = some payment → payment.Sound hash) :
    ∀ payment, op.after hash current = some payment → payment.Sound hash := by
  intro payment hpayment
  obtain ⟨updated, hchange, hafter⟩ | ⟨_, hafter⟩ | hafter := after_cases hash op current
  · cases hafter.symm.trans hpayment
    exact sound_change hchange hcurrent
  · rw [hafter] at hpayment
    exact hcurrent payment (Option.filter_eq_some_iff.1 hpayment).1
  · exact hcurrent payment (hafter.symm.trans hpayment)

end Lifecycle

namespace Store

open Lifecycle

/-- Reached from an empty store by operations. -/
def Reachable (store : Store) : Prop := ∃ version ops, store = ran ⟨version, .empty⟩ ops

/-- Whatever is stored is consistent and sound. -/
structure Sound (store : Store) : Prop where
  consistent : store.Consistent
  payments : ∀ hash payment, store.get? hash = .ok (some payment) → payment.Sound hash

theorem sound_blank (version : Option String) : Sound ⟨version, .empty⟩ :=
  ⟨consistent_blank version, fun hash _ h => nomatch (get?_blank version hash).symm.trans h⟩

theorem sound_step {store : Store} (h : store.Sound) (op : Op) : (store.step op).2.Sound := by
  refine ⟨consistent_step h.consistent op, ?_⟩
  intro hash payment hpayment
  obtain ⟨current, hget, _⟩ := h.consistent hash
  rw [get?_step h.consistent op hget] at hpayment
  refine sound_after ?_ payment (Except.ok.inj hpayment)
  rintro before rfl
  exact h.payments hash before hget

theorem sound_ran {store : Store} (h : store.Sound) (ops : List Op) : (store.ran ops).Sound := by
  induction ops generalizing store with
  | nil => exact h
  | cons op ops ih => exact ih (sound_step h op)

variable {store : Store} {hash : PaymentHash} {payment : Payment}

theorem sound_of_reachable (h : store.Reachable) : store.Sound := by
  obtain ⟨version, ops, rfl⟩ := h
  exact sound_ran (sound_blank version) ops

theorem change_of_accepts {op : Op} {transition : Transition} (hsound : store.Sound)
    (hop : op.transition? = some (hash, transition)) (haccepts : store.Accepts op) :
    ∃ current updated, store.get? hash = .ok current ∧ Change hash op current updated ∧
      (store.step op).2.get? hash = .ok (some updated) := by
  obtain ⟨current, hget, _⟩ := hsound.consistent hash
  obtain ⟨updated, h⟩ := (accepts_iff hsound.consistent hop hget).1 haccepts
  refine ⟨current, updated, hget, h, ?_⟩
  rw [get?_step hsound.consistent op hget, after_of_change h]

/-- What changes keep, a run keeps unless the payment is removed. -/
theorem ran_keeps_payment (P : Payment → Prop) (hsound : store.Sound) (ops : List Op)
    (hget : store.get? hash = .ok (some payment)) (hP : P payment)
    (hremoves : ¬ store.Removes ops hash)
    (hchange : ∀ op payment updated, payment.Sound hash → P payment →
      Change hash op (some payment) updated → store.Carries ops op → P updated) :
    ∃ kept, (store.ran ops).get? hash = .ok (some kept) ∧ P kept := by
  have hcons := hsound.consistent
  have hstep : ∀ before op later reached, ops = before ++ op :: later →
      (store.ran before).get? hash = .ok reached → (∃ payment, reached = some payment ∧ P payment) →
        ∃ payment, op.after hash reached = some payment ∧ P payment := by
    rintro before op later _ rfl hreached ⟨reached, rfl, hP⟩
    obtain ⟨updated, h, hafter⟩ | ⟨rfl, hafter⟩ | hafter := after_cases hash op (some reached)
    · have hpayment := (sound_ran hsound before).payments hash reached hreached
      have hcarries := carries_of_change later hcons hreached h
      exact ⟨updated, hafter, hchange op reached updated hpayment hP h hcarries⟩
    · -- Deletion leaves a payment in flight alone, and any other it would remove.
      by_cases hinFlight : reached.status = .inFlight
      · refine ⟨reached, ?_, hP⟩
        simp [hafter, Option.filter, hinFlight]
      · exact absurd (removes_of_delete hcons hreached hinFlight) hremoves
    · exact ⟨reached, hafter, hP⟩
  obtain ⟨_, hfinal, kept, rfl, hkept⟩ := ran_keeps
    (fun current => ∃ payment, current = some payment ∧ P payment) hcons ops hget
    ⟨payment, rfl, hP⟩ hstep
  exact ⟨kept, hfinal, hkept⟩

theorem ran_keeps_stored (P : Payment → Prop) (hsound : store.Sound) (ops : List Op)
    (hP : ∀ payment, store.get? hash = .ok (some payment) → P payment)
    (hchange : ∀ op reached updated, (∀ payment, reached = some payment → payment.Sound hash) →
      (∀ payment, reached = some payment → P payment) → Change hash op reached updated →
        store.Carries ops op → P updated)
    (hkept : (store.ran ops).get? hash = .ok (some payment)) : P payment := by
  have hcons := hsound.consistent
  have hstep : ∀ before op later reached, ops = before ++ op :: later →
      (store.ran before).get? hash = .ok reached → (∀ payment, reached = some payment → P payment) →
        ∀ payment, op.after hash reached = some payment → P payment := by
    rintro before op later reached rfl hreached hold payment hpayment
    obtain ⟨updated, h, hafter⟩ | ⟨rfl, hafter⟩ | hafter := after_cases hash op reached
    · cases hafter.symm.trans hpayment
      refine hchange op reached payment ?_ hold h (carries_of_change later hcons hreached h)
      rintro earlier rfl
      exact (sound_ran hsound before).payments hash earlier hreached
    · rw [hafter] at hpayment
      exact hold payment (Option.filter_eq_some_iff.1 hpayment).1
    · exact hold payment (hafter.symm.trans hpayment)
  obtain ⟨current, hget, _⟩ := hcons hash
  obtain ⟨final, hfinal, hholds⟩ := ran_keeps
    (fun current => ∀ payment, current = some payment → P payment) hcons ops hget
    (fun payment hpayment => hP payment (hpayment ▸ hget)) hstep
  exact hholds payment (Except.ok.inj (hfinal.symm.trans hkept))

/-- Reading under any hash gives nothing or a sound payment, and its status is what its
attempts and its reason to give up say. -/
theorem stored_sound (version : Option String) (ops : List Op) (hash : PaymentHash) :
    ∃ found, (ran ⟨version, .empty⟩ ops).get? hash = .ok found ∧
      ∀ payment, found = some payment → payment.Sound hash ∧
        (payment.status = .succeeded ↔ ∃ attempt ∈ payment.attempts, attempt.Settled) ∧
        (payment.status = .failed ↔
          (∀ attempt ∈ payment.attempts, ¬ attempt.Settled) ∧ payment.giveUpReason.isSome) ∧
        (payment.status = .inFlight ↔
          (∀ attempt ∈ payment.attempts, ¬ attempt.Settled) ∧ payment.giveUpReason = none) := by
  have hsound := sound_ran (sound_blank version) ops
  obtain ⟨found, hget, _⟩ := hsound.consistent hash
  refine ⟨found, hget, ?_⟩
  rintro payment rfl
  have h := hsound.payments hash payment hget
  exact ⟨h, Payment.status_eq_succeeded_iff h, Payment.status_eq_failed_iff h,
    Payment.status_eq_inFlight_iff h⟩

end Store

namespace Sample

open Lifecycle

def preimage : Preimage := ⟨⟨List.replicate 32 0, rfl⟩⟩

def hash : PaymentHash := preimage.hash

def creation : CreationInfo := ⟨hash, ⟨1000⟩, 1700000000, []⟩

def route : Route := ⟨640, ⟨1000⟩, ⟨1, false, by decide +kernel⟩, []⟩

def attempt : AttemptInfo := ⟨0, ⟨1, by decide, by decide⟩, route, 1700000001⟩

def settlement : Settlement := ⟨preimage, 1700000002⟩

def failure : AttemptFailure := ⟨.message, 1700000002, some 1⟩

def pending : Payment := (Payment.fresh creation).append ⟨attempt, .pending⟩

def givenUp : Payment := { pending with giveUpReason := some .timeout }

def settled : Payment := ⟨creation, [⟨attempt, .settled settlement⟩], none, some 0⟩

theorem change_start : Change hash (.start creation) none (.fresh creation) := .startFirst rfl

theorem change_register : Change hash (.register hash attempt) (some (.fresh creation)) pending :=
  .register rfl rfl

theorem change_giveUp : Change hash (.giveUp hash .timeout) (some pending) givenUp :=
  .giveUp (by decide)

theorem change_retry : Change hash (.start creation) (some givenUp) (.fresh creation) :=
  .startAgain rfl rfl

theorem change_settle : Change hash (.settle hash 0 settlement) (some pending) settled :=
  @Change.settle hash 0 settlement pending attempt rfl rfl

def registered : Store := Store.empty.ran [.start creation, .register hash attempt]

theorem consistent_empty : Store.empty.Consistent := Store.consistent_blank none

theorem get?_empty : Store.empty.get? hash = .ok none := Store.get?_blank none hash

theorem get?_registered : registered.get? hash = .ok (some pending) := by
  rw [registered, Store.get?_ran consistent_empty _ get?_empty,
    foldl_after_of_change _ change_start, foldl_after_of_change _ change_register,
    List.foldl_nil]

theorem consistent_registered : registered.Consistent :=
  Store.consistent_ran consistent_empty _

end Sample

theorem Store.stored_sound_settled : ∃ payment,
    (ran .empty [.start Sample.creation, .register Sample.hash Sample.attempt,
      .settle Sample.hash 0 Sample.settlement]).get? Sample.hash = .ok (some payment) ∧
      payment.Sound Sample.hash ∧ payment.status = .succeeded := by
  obtain ⟨found, hfound, hsound⟩ := stored_sound none [.start Sample.creation,
    .register Sample.hash Sample.attempt, .settle Sample.hash 0 Sample.settlement] Sample.hash
  have hget := get?_ran Sample.consistent_empty [.start Sample.creation,
    .register Sample.hash Sample.attempt, .settle Sample.hash 0 Sample.settlement]
    Sample.get?_empty
  rw [List.foldl_cons, Lifecycle.after_of_change Sample.change_start, List.foldl_cons,
    Lifecycle.after_of_change Sample.change_register, List.foldl_cons,
    Lifecycle.after_of_change Sample.change_settle, List.foldl_nil] at hget
  have hsettled : some Sample.settled = found := Except.ok.inj (hget.symm.trans hfound)
  obtain ⟨hpayment, hsucceeded, _⟩ := hsound Sample.settled hsettled.symm
  refine ⟨Sample.settled, hget, hpayment, hsucceeded.2 ⟨_, List.mem_singleton_self _, ?_⟩⟩
  exact ⟨Sample.settlement, rfl⟩

end Lightpay
