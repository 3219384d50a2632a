import Lightpay.Proofs.Lifecycle.Soundness

/-! The lifecycle as an automaton of four statuses. For each operation it says when the
operation is carried out, what that makes of the payment, and which checks refuse it, in
their order. Reachable stores follow it, although they keep no status but derive it. -/

namespace Lightpay

namespace Lifecycle

def statusOf (current : Option Payment) : Status := current.elim .unknown Payment.status

def Registered (id : UInt64) (current : Option Payment) : Prop :=
  ∃ payment, current = some payment ∧ ∃ attempt ∈ payment.attempts, attempt.id = id

def Awaited (id : UInt64) (current : Option Payment) : Prop :=
  ∃ payment, current = some payment ∧
    ∃ attempt ∈ payment.attempts, attempt.id = id ∧ attempt.outcome = .pending

/-- A check of an operation, and the error that it refuses with. -/
structure Check where
  holds : Prop
  error : Error

/-- The error belongs to the first of the checks that fails. -/
inductive FirstFailing : List Check → Error → Prop
  | here {check : Check} {rest : List Check} (hfails : ¬ check.holds) :
    FirstFailing (check :: rest) check.error
  | later {check : Check} {rest : List Check} {e : Error} (hholds : check.holds)
      (hrest : FirstFailing rest e) : FirstFailing (check :: rest) e

def awaitedChecks (id : UInt64) (current : Option Payment) : List Check :=
  [⟨Registered id current, .attemptNotFound id⟩, ⟨Awaited id current, .attemptAlreadyResolved id⟩]

/-- The checks of an operation on what is stored under the hash, in their order. -/
def Op.checks (hash : PaymentHash) (current : Option Payment) : Op → List Check
  | .start _ =>
    [⟨statusOf current ≠ .inFlight, .inFlight⟩, ⟨statusOf current ≠ .succeeded, .alreadyPaid⟩]
  | .register _ info =>
    [⟨current.isSome, .notInitiated⟩, ⟨statusOf current ≠ .succeeded, .alreadySucceeded⟩,
      ⟨statusOf current ≠ .failed, .alreadyFailed⟩,
      ⟨¬ Registered info.id current, .duplicateAttempt info.id⟩]
  | .failAttempt _ id _ => ⟨current.isSome, .notInitiated⟩ :: awaitedChecks id current
  | .giveUp _ _ =>
    [⟨current.isSome, .notInitiated⟩, ⟨statusOf current ≠ .succeeded, .alreadySucceeded⟩]
  | .settle _ id settlement =>
    ⟨current.isSome, .notInitiated⟩ ::
      ⟨settlement.preimage.Matches hash, .invalidPreimage⟩ :: awaitedChecks id current
  | .fetch _ | .status _ | .list | .listInFlight | .delete => []

def Checked (checks : List Check) : Except Error Payment → Prop
  | .ok _ => ∀ check ∈ checks, check.holds
  | .error e => FirstFailing checks e

theorem not_holds_of_firstFailing {checks : List Check} {e : Error} (h : FirstFailing checks e) :
    ¬ ∀ check ∈ checks, check.holds := by
  induction h with
  | here hfails => exact fun hall => hfails (hall _ List.mem_cons_self)
  | later _ _ ih => exact fun hall => ih fun check hmem => hall check (List.mem_cons_of_mem _ hmem)

theorem firstFailing_unique {checks : List Check} {left right : Error}
    (hleft : FirstFailing checks left) (hright : FirstFailing checks right) : left = right := by
  induction hleft with
  | here hfails =>
    cases hright with
    | here => rfl
    | later hholds => exact absurd hholds hfails
  | later hholds _ ih =>
    cases hright with
    | here hfails => exact absurd hholds hfails
    | later _ hrest => exact ih hrest

theorem error_iff_of_checked {checks : List Check} {result : Except Error Payment}
    (h : Checked checks result) (e : Error) : result = .error e ↔ FirstFailing checks e := by
  cases result with
  | ok updated => exact iff_of_false nofun fun hfailing => not_holds_of_firstFailing hfailing h
  | error other =>
    constructor
    · rintro ⟨⟩
      exact h
    · intro hfailing
      rw [firstFailing_unique h hfailing]

theorem ok_iff_of_checked {checks : List Check} {result : Except Error Payment}
    (h : Checked checks result) :
    (∃ updated, result = .ok updated) ↔ ∀ check ∈ checks, check.holds := by
  cases result with
  | ok updated => exact iff_of_true ⟨updated, rfl⟩ h
  | error e => exact iff_of_false nofun (not_holds_of_firstFailing h)

theorem checked_cons {check : Check} {checks : List Check} {result : Except Error Payment}
    (hholds : check.holds) (h : Checked checks result) : Checked (check :: checks) result := by
  cases result with
  | ok updated => exact List.forall_mem_cons.2 ⟨hholds, h⟩
  | error e => exact .later hholds h

theorem checked_map {checks : List Check} {result : Except Error Payment} (f : Payment → Payment)
    (h : Checked checks result) : Checked checks (result.map f) := by
  cases result <;> exact h

variable {hash : PaymentHash} {payment : Payment} {id : UInt64}

theorem registered_iff : Registered id (some payment) ↔ (payment.attempt? id).isSome := by
  simp [Registered, Payment.attempt?]

theorem awaited_iff (hids : payment.DistinctIds) : Awaited id (some payment) ↔
    ∃ info, payment.attempt? id = some ⟨info, .pending⟩ := by
  constructor
  · rintro ⟨_, ⟨⟩, ⟨info, outcome⟩, hmem, rfl, rfl⟩
    exact ⟨info, Payment.attempt?_of_mem hids hmem⟩
  · rintro ⟨info, hpending⟩
    exact ⟨payment, rfl, _, Payment.mem_of_attempt? hpending, Payment.id_of_attempt? hpending, rfl⟩

theorem checked_start (info : CreationInfo) (current : Option Payment) :
    Checked ((Op.start info).checks hash current) (Lifecycle.start info current) := by
  cases current with
  | none => simp [Checked, Lifecycle.start, Op.checks, statusOf]
  | some payment =>
    cases hstatus : payment.status with
    | inFlight =>
      simp only [Lifecycle.start, hstatus]
      exact .here (by simp [statusOf, hstatus])
    | succeeded =>
      simp only [Lifecycle.start, hstatus]
      exact .later (by simp [statusOf, hstatus]) (.here (by simp [statusOf, hstatus]))
    | failed => simp [Checked, Lifecycle.start, Op.checks, statusOf, hstatus]
    | unknown => exact absurd hstatus (status_ne_unknown payment)

theorem checked_register (info : AttemptInfo) (current : Option Payment) :
    Checked ((Op.register hash info).checks hash current) (Lifecycle.register info current) := by
  cases current with
  | none => exact .here (by simp)
  | some payment =>
    refine checked_cons rfl ?_
    cases hstatus : payment.status with
    | succeeded =>
      simp only [Lifecycle.register, onStarted, hstatus]
      exact .here (by simp [statusOf, hstatus])
    | failed =>
      simp only [Lifecycle.register, onStarted, hstatus]
      exact .later (by simp [statusOf, hstatus]) (.here (by simp [statusOf, hstatus]))
    | unknown => exact absurd hstatus (status_ne_unknown payment)
    | inFlight =>
      refine checked_cons (by simp [statusOf, hstatus]) ?_
      refine checked_cons (by simp [statusOf, hstatus]) ?_
      simp only [Lifecycle.register, onStarted, hstatus]
      split
      · rename_i hregistered
        exact .here (not_not_intro (registered_iff.2 hregistered))
      · rename_i hnew
        simpa [Checked, registered_iff] using hnew

theorem checked_giveUp (reason : GiveUpReason) (current : Option Payment) :
    Checked ((Op.giveUp hash reason).checks hash current) (Lifecycle.giveUp reason current) := by
  cases current with
  | none => exact .here (by simp)
  | some payment =>
    refine checked_cons rfl ?_
    by_cases hstatus : payment.status = .succeeded
    · simp only [Lifecycle.giveUp, onStarted, hstatus, ↓reduceIte]
      exact .here (by simp [statusOf, hstatus])
    · simp [Checked, Lifecycle.giveUp, onStarted, statusOf, hstatus]

theorem checked_resolve (hids : payment.DistinctIds) (id : UInt64) (outcome : Outcome) :
    Checked (awaitedChecks id (some payment)) (resolve payment id outcome) := by
  rw [resolve, awaitedChecks]
  cases hattempt : payment.attempt? id with
  | none => exact .here (by simp [registered_iff, hattempt])
  | some attempt =>
    refine checked_cons (by simp [registered_iff, hattempt]) ?_
    obtain ⟨info, recorded⟩ := attempt
    by_cases hpending : recorded = .pending
    · subst hpending
      have hawaited : Awaited id (some payment) := (awaited_iff hids).2 ⟨info, hattempt⟩
      simpa [Checked, Attempt.Resolved] using hawaited
    · have hresolved : (⟨info, recorded⟩ : Attempt).Resolved := hpending
      simp only [hresolved, ↓reduceIte]
      refine .here fun hawaited => ?_
      obtain ⟨other, hother⟩ := (awaited_iff hids).1 hawaited
      cases hattempt.symm.trans hother
      exact hpending rfl

theorem checked_failAttempt {current : Option Payment}
    (hids : ∀ payment, current = some payment → payment.DistinctIds) (id : UInt64)
    (failure : AttemptFailure) :
    Checked ((Op.failAttempt hash id failure).checks hash current)
      (Lifecycle.failAttempt id failure current) := by
  cases current with
  | none => exact .here (by simp)
  | some payment => exact checked_cons rfl (checked_resolve (hids payment rfl) id (.failed failure))

theorem checked_settle {current : Option Payment}
    (hids : ∀ payment, current = some payment → payment.DistinctIds) (id : UInt64)
    (settlement : Settlement) :
    Checked ((Op.settle hash id settlement).checks hash current)
      (Lifecycle.settle hash id settlement current) := by
  cases current with
  | none => exact .here (by simp)
  | some payment =>
    refine checked_cons rfl ?_
    by_cases hpreimage : settlement.preimage.Matches hash
    · refine checked_cons hpreimage ?_
      simp only [Lifecycle.settle, onStarted, hpreimage, not_true_eq_false, ↓reduceIte]
      exact checked_map (fun resolved => { resolved.recordSettle id with giveUpReason := none })
        (checked_resolve (hids payment rfl) id (.settled settlement))
    · have hrefused : Lifecycle.settle hash id settlement (some payment) =
          .error .invalidPreimage := by
        simp [Lifecycle.settle, onStarted, hpreimage]
      rw [hrefused]
      exact .here hpreimage

theorem checked_transition {op : Op} {transition : Transition} {current : Option Payment}
    (hids : ∀ payment, current = some payment → payment.DistinctIds)
    (hop : op.transition? = some (hash, transition)) :
    Checked (op.checks hash current) (transition current) := by
  cases op with
  | start info =>
    cases hop
    exact checked_start info current
  | register _ info =>
    cases hop
    exact checked_register info current
  | failAttempt _ id failure =>
    cases hop
    exact checked_failAttempt hids id failure
  | giveUp _ reason =>
    cases hop
    exact checked_giveUp reason current
  | settle _ id settlement =>
    cases hop
    exact checked_settle hids id settlement
  | fetch => cases hop
  | status => cases hop
  | list => cases hop
  | listInFlight => cases hop
  | delete => cases hop

theorem status_of_register (hsound : payment.Sound hash) {info : AttemptInfo}
    (hnew : payment.attempt? info.id = none) :
    (payment.append ⟨info, .pending⟩).status = payment.status := by
  rw [Payment.status_of_sound (Payment.sound_append hsound info hnew),
    Payment.status_of_sound hsound]
  rfl

theorem status_of_failAttempt (hsound : payment.Sound hash) {info : AttemptInfo}
    (hpending : payment.attempt? id = some ⟨info, .pending⟩) (failure : AttemptFailure) :
    (payment.setOutcome id (.failed failure)).status = payment.status := by
  rw [Payment.status_of_sound (Payment.sound_failed hsound hpending failure),
    Payment.status_of_sound hsound]
  rfl

theorem status_of_giveUp (hsound : payment.Sound hash) (hopen : payment.status ≠ .succeeded)
    (reason : GiveUpReason) : ({ payment with giveUpReason := some reason }).status = .failed := by
  have hsettled : payment.settledId.isSome = false := by
    rw [← Bool.not_eq_true]
    intro hsome
    rw [Payment.status_of_sound hsound, if_pos hsome] at hopen
    exact hopen rfl
  rw [Payment.status_of_sound (Payment.sound_givenUp hsound hopen reason)]
  simp [hsettled]

theorem status_of_settle (hsound : payment.Sound hash) {info : AttemptInfo}
    (hpending : payment.attempt? id = some ⟨info, .pending⟩) (settlement : Settlement)
    (hpreimage : settlement.preimage.Matches hash) :
    ({ (payment.setOutcome id (.settled settlement)).recordSettle id with
      giveUpReason := none }).status = .succeeded := by
  rw [Payment.status_of_sound (Payment.sound_settled hsound hpending settlement hpreimage)]
  rfl

theorem isSome_iff {current : Option Payment} :
    current.isSome = true ↔ statusOf current ≠ .unknown := by
  cases current with
  | none => exact iff_of_false nofun fun h => h rfl
  | some payment => exact iff_of_true rfl (status_ne_unknown payment)

theorem registered_of_awaited {current : Option Payment} (h : Awaited id current) :
    Registered id current := by
  obtain ⟨payment, hcurrent, attempt, hmem, hid, _⟩ := h
  exact ⟨payment, hcurrent, attempt, hmem, hid⟩

theorem isSome_of_awaited {current : Option Payment} (h : Awaited id current) :
    current.isSome = true := by
  obtain ⟨payment, rfl, _⟩ := h
  rfl

theorem start_checks_iff (info : CreationInfo) (current : Option Payment) :
    (∀ check ∈ (Op.start info).checks hash current, check.holds) ↔
      statusOf current = .unknown ∨ statusOf current = .failed := by
  simp only [Op.checks, List.forall_mem_cons, List.not_mem_nil, false_implies, implies_true,
    and_true]
  cases statusOf current <;> simp

theorem register_checks_iff (info : AttemptInfo) (current : Option Payment) :
    (∀ check ∈ (Op.register hash info).checks hash current, check.holds) ↔
      statusOf current = .inFlight ∧ ¬ Registered info.id current := by
  simp only [Op.checks, List.forall_mem_cons, List.not_mem_nil, false_implies, implies_true,
    and_true, isSome_iff]
  cases statusOf current <;> simp

theorem giveUp_checks_iff (reason : GiveUpReason) (current : Option Payment) :
    (∀ check ∈ (Op.giveUp hash reason).checks hash current, check.holds) ↔
      statusOf current = .inFlight ∨ statusOf current = .failed := by
  simp only [Op.checks, List.forall_mem_cons, List.not_mem_nil, false_implies, implies_true,
    and_true, isSome_iff]
  cases statusOf current <;> simp

theorem failAttempt_checks_iff (failure : AttemptFailure) (current : Option Payment) :
    (∀ check ∈ (Op.failAttempt hash id failure).checks hash current, check.holds) ↔
      Awaited id current := by
  simp only [Op.checks, awaitedChecks, List.forall_mem_cons, List.not_mem_nil, false_implies,
    implies_true, and_true]
  exact ⟨fun h => h.2.2, fun h => ⟨isSome_of_awaited h, registered_of_awaited h, h⟩⟩

theorem settle_checks_iff (settlement : Settlement) (current : Option Payment) :
    (∀ check ∈ (Op.settle hash id settlement).checks hash current, check.holds) ↔
      settlement.preimage.Matches hash ∧ Awaited id current := by
  simp only [Op.checks, awaitedChecks, List.forall_mem_cons, List.not_mem_nil, false_implies,
    implies_true, and_true]
  exact ⟨fun h => ⟨h.2.1, h.2.2.2⟩,
    fun ⟨hpreimage, h⟩ => ⟨isSome_of_awaited h, hpreimage, registered_of_awaited h, h⟩⟩

end Lifecycle

open Lifecycle

namespace Store

/-- The operation is carried out exactly if the guard holds, and then leaves such a payment. -/
def Performs (store : Store) (op : Op) (hash : PaymentHash) (guard : Prop)
    (leaves : Payment → Prop) : Prop :=
  (store.Accepts op ↔ guard) ∧
    (guard → ∃ updated, (store.step op).2.get? hash = .ok (some updated) ∧ leaves updated)

/-- The lifecycle of one hash, by what is stored under it now. -/
structure Follows (store : Store) (hash : PaymentHash) (current : Option Payment) : Prop where
  status : store.status hash = .ok (statusOf current)
  start : ∀ info : CreationInfo, info.hash = hash →
    store.Performs (.start info) hash
      (statusOf current = .unknown ∨ statusOf current = .failed)
      fun updated => updated.status = .inFlight ∧ updated.info = info ∧ updated.attempts = [] ∧
        updated.giveUpReason = none ∧ updated.settledId = none
  register : ∀ info,
    store.Performs (.register hash info) hash
      (statusOf current = .inFlight ∧ ¬ Registered info.id current)
      fun updated => updated.status = .inFlight ∧ ∃ payment, current = some payment ∧
        updated = { payment with attempts := payment.attempts ++ [⟨info, .pending⟩] }
  failAttempt : ∀ id failure,
    store.Performs (.failAttempt hash id failure) hash
      (Awaited id current)
      fun updated => updated.status = statusOf current ∧ ∃ payment, current = some payment ∧
        updated = { payment with
          attempts := payment.attempts.map (·.recorded id (.failed failure)) }
  giveUp : ∀ reason,
    store.Performs (.giveUp hash reason) hash
      (statusOf current = .inFlight ∨ statusOf current = .failed)
      fun updated => updated.status = .failed ∧ ∃ payment, current = some payment ∧
        updated = { payment with giveUpReason := some reason }
  settle : ∀ id settlement,
    store.Performs (.settle hash id settlement) hash
      (settlement.preimage.Matches hash ∧ Awaited id current)
      fun updated => updated.status = .succeeded ∧ ∃ payment, current = some payment ∧
        updated = { payment with
          attempts := payment.attempts.map (·.recorded id (.settled settlement))
          giveUpReason := none
          settledId := some (payment.settledId.getD id) }
  delete : store.Accepts .delete ∧
    (store.step .delete).2.get? hash = .ok
      (if statusOf current = .succeeded ∨ statusOf current = .failed then none else current)
  others : ∀ op, (∀ transition, op.transition? ≠ some (hash, transition)) → op ≠ .delete →
    (store.step op).2.get? hash = .ok current
  refused : ∀ op, ¬ store.Accepts op → (store.step op).2 = store
  first_failing : ∀ op transition, op.transition? = some (hash, transition) → ∀ e,
    (store.step op).1 = .error e ↔ FirstFailing (op.checks hash current) e

variable {store : Store} {hash : PaymentHash} {current : Option Payment}

theorem distinctIds_of_get? (hsound : store.Sound) (hget : store.get? hash = .ok current) :
    ∀ payment, current = some payment → payment.DistinctIds := by
  rintro payment rfl
  exact (hsound.payments hash payment hget).distinct_ids

theorem error_iff_firstFailing {op : Op} {transition : Transition} (hsound : store.Sound)
    (hget : store.get? hash = .ok current) (hop : op.transition? = some (hash, transition))
    (e : Error) : (store.step op).1 = .error e ↔ FirstFailing (op.checks hash current) e := by
  obtain ⟨known, hknown, hhash⟩ := hsound.consistent hash
  cases hget.symm.trans hknown
  rw [step_error_iff hop hget hhash,
    error_iff_of_checked (checked_transition (distinctIds_of_get? hsound hget) hop)]

theorem performs_of {op : Op} {transition : Transition} {guard : Prop} {leaves : Payment → Prop}
    (hsound : store.Sound) (hget : store.get? hash = .ok current)
    (hop : op.transition? = some (hash, transition))
    (hguard : (∀ check ∈ op.checks hash current, check.holds) ↔ guard)
    (hleaves : ∀ updated, (∀ payment, current = some payment → payment.Sound hash) →
      Change hash op current updated → leaves updated) :
    store.Performs op hash guard leaves := by
  have hchecked := checked_transition (distinctIds_of_get? hsound hget) hop
  have haccepts : store.Accepts op ↔ guard := by
    rw [accepts_iff hsound.consistent hop hget, ← hguard, ← ok_iff_of_checked hchecked]
    simp only [transition_ok_iff hop]
  refine ⟨haccepts, fun h => ?_⟩
  obtain ⟨known, updated, hknown, hchange, hupdated⟩ :=
    change_of_accepts hsound hop (haccepts.2 h)
  cases hget.symm.trans hknown
  refine ⟨updated, hupdated, hleaves updated ?_ hchange⟩
  rintro payment rfl
  exact hsound.payments hash payment hget

theorem refused_unchanged (store : Store) (op : Op) (h : ¬ store.Accepts op) :
    (store.step op).2 = store := by
  rw [step]
  cases happly : store.apply op with
  | ok done => exact absurd ⟨done.1, done.2, happly⟩ h
  | error e => rfl

theorem status_of_get? (hget : store.get? hash = .ok current) :
    store.status hash = .ok (statusOf current) := by
  rw [Store.status, hget]
  cases current <;> rfl

theorem deleted (hsound : store.Sound) (hget : store.get? hash = .ok current) :
    store.Accepts .delete ∧ (store.step .delete).2.get? hash = .ok
      (if statusOf current = .succeeded ∨ statusOf current = .failed then none else current) := by
  have hreadable := readable_of_consistent hsound.consistent
  obtain ⟨n, hremove⟩ := remove_ok store (·.status ≠ .inFlight) hreadable
  refine ⟨⟨.count n, store.without (·.status ≠ .inFlight), ?_⟩, ?_⟩
  · rw [apply, deleteResolved, hremove]
    rfl
  · rw [get?_step hsound.consistent _ hget, after_delete]
    cases current with
    | none => simp
    | some payment =>
      cases hstatus : payment.status with
      | unknown => exact absurd hstatus (status_ne_unknown payment)
      | inFlight => simp [Option.filter, statusOf, hstatus]
      | succeeded => simp [Option.filter, statusOf, hstatus]
      | failed => simp [Option.filter, statusOf, hstatus]

/-- Every reachable store follows the lifecycle on every hash. -/
theorem follows_lifecycle (hreachable : store.Reachable) (hash : PaymentHash) :
    ∃ current, store.get? hash = .ok current ∧ store.Follows hash current := by
  have hsound := sound_of_reachable hreachable
  obtain ⟨current, hget, _⟩ := hsound.consistent hash
  refine ⟨current, hget, ?_⟩
  constructor
  case status => exact status_of_get? hget
  case start =>
    rintro info rfl
    apply performs_of hsound hget rfl (start_checks_iff info current)
    intro updated _ h
    cases h <;> exact ⟨rfl, rfl, rfl, rfl, rfl⟩
  case register =>
    intro info
    apply performs_of hsound hget rfl (register_checks_iff info current)
    intro updated hcurrent h
    cases h with
    | @register _ payment hinFlight hnew =>
      exact ⟨(status_of_register (hcurrent payment rfl) hnew).trans hinFlight, payment, rfl, rfl⟩
  case failAttempt =>
    intro id failure
    apply performs_of hsound hget rfl (failAttempt_checks_iff failure current)
    intro updated hcurrent h
    cases h with
    | @failAttempt _ _ payment _ hpending =>
      have hpayment := hcurrent payment rfl
      refine ⟨status_of_failAttempt hpayment hpending failure, payment, rfl, ?_⟩
      rw [← Payment.attempts_setOutcome hpayment.distinct_ids]
      rfl
  case giveUp =>
    intro reason
    apply performs_of hsound hget rfl (giveUp_checks_iff reason current)
    intro updated hcurrent h
    cases h with
    | @giveUp _ payment hopen =>
      exact ⟨status_of_giveUp (hcurrent payment rfl) hopen reason, payment, rfl, rfl⟩
  case settle =>
    intro id settlement
    apply performs_of hsound hget rfl (settle_checks_iff settlement current)
    intro updated hcurrent h
    cases h with
    | @settle _ _ payment _ hpreimage hpending =>
      have hpayment := hcurrent payment rfl
      refine ⟨status_of_settle hpayment hpending settlement hpreimage, payment, rfl, ?_⟩
      rw [← Payment.attempts_setOutcome hpayment.distinct_ids]
      rfl
  case delete => exact deleted hsound hget
  case others =>
    intro op hother hdelete
    rw [get?_step hsound.consistent op hget, after_eq_self _ hdelete]
    intro updated h
    obtain ⟨transition, hop⟩ := transition_of_change h
    exact hother transition hop
  case refused => exact fun op => store.refused_unchanged op
  case first_failing => exact fun op transition hop e => error_iff_firstFailing hsound hget hop e

end Store

namespace Sample

def abandoned : Store := Store.empty.ran
  [.start creation, .register hash attempt, .giveUp hash .timeout]

theorem abandoned_reachable : abandoned.Reachable := ⟨none, _, rfl⟩

theorem get?_abandoned : abandoned.get? hash = .ok (some givenUp) := by
  rw [abandoned, Store.get?_ran consistent_empty _ get?_empty,
    foldl_after_of_change _ change_start, foldl_after_of_change _ change_register,
    foldl_after_of_change _ change_giveUp, List.foldl_nil]

theorem awaited_givenUp : Awaited 0 (some givenUp) :=
  ⟨givenUp, rfl, _, List.mem_singleton_self _, rfl, rfl⟩

end Sample

theorem Store.follows_lifecycle_givenUp :
    (∃ updated, (Sample.abandoned.step (.settle Sample.hash 0 Sample.settlement)).2.get?
        Sample.hash = .ok (some updated) ∧ updated.status = .succeeded) ∧
      (Sample.abandoned.step (.register Sample.hash Sample.attempt)).1 = .error .alreadyFailed := by
  obtain ⟨current, hget, hfollows⟩ := follows_lifecycle Sample.abandoned_reachable Sample.hash
  cases Sample.get?_abandoned.symm.trans hget
  constructor
  · obtain ⟨updated, hupdated, hstatus, _⟩ :=
      (hfollows.settle 0 Sample.settlement).2 ⟨rfl, Sample.awaited_givenUp⟩
    exact ⟨updated, hupdated, hstatus⟩
  · have hstatus : statusOf (some Sample.givenUp) = .failed := rfl
    refine (hfollows.first_failing _ _ rfl _).2 ?_
    exact .later rfl (.later (by simp [hstatus]) (.here (by simp [hstatus])))

end Lightpay
