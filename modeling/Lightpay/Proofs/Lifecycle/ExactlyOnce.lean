import Lightpay.Proofs.Lifecycle.Soundness

/-! A hash is paid at most once. Only deletion forgets a settled attempt, so between
two starts that nothing was deleted between, no attempt can have settled. -/

namespace Lightpay

namespace Lifecycle

variable {hash : PaymentHash} {op : Op} {payment updated : Payment}

theorem succeeded_of_change (hsound : payment.Sound hash) (hstatus : payment.status = .succeeded)
    (h : Change hash op (some payment) updated) : updated.status = .succeeded := by
  have hstart : ∀ info, op ≠ .start info := by
    rintro info rfl
    cases h with
    | startAgain _ hfailed => cases hfailed.symm.trans hstatus
  have hupdated : updated.Sound hash := by
    apply sound_change h
    rintro _ ⟨⟩
    exact hsound
  obtain ⟨attempt, hmem, settlement, hsettled⟩ :=
    (Payment.status_eq_succeeded_iff hsound).1 hstatus
  rcases attempt_kept h hstart hsound.distinct_ids hmem with hkept | ⟨_, _, hpending, _⟩
  · exact (Payment.status_eq_succeeded_iff hupdated).2 ⟨attempt, hkept, settlement, hsettled⟩
  · cases hpending.symm.trans hsettled

theorem succeeded_of_settle {id : UInt64} {settlement : Settlement} {current : Option Payment}
    (hcurrent : ∀ payment, current = some payment → payment.Sound hash)
    (h : Change hash (.settle hash id settlement) current updated) :
    updated.status = .succeeded := by
  have hupdated := sound_change h hcurrent
  cases h with
  | @settle _ _ payment info _ hpending =>
    have hids := (hcurrent payment rfl).distinct_ids
    have hnew := (Payment.mem_setOutcome hids hpending (.settled settlement) _).2 (.inl rfl)
    exact (Payment.status_eq_succeeded_iff hupdated).2 ⟨_, hnew, settlement, rfl⟩

theorem giveUpReason_of_change (hnone : payment.giveUpReason = none)
    (h : Change hash op (some payment) updated) (hgiveUp : ∀ reason, op ≠ .giveUp hash reason) :
    updated.giveUpReason = none := by
  cases h with
  | startAgain => rfl
  | register => exact hnone
  | failAttempt => exact hnone
  | giveUp => exact absurd rfl (hgiveUp _)
  | settle => rfl

end Lifecycle

namespace Store

open Lifecycle

variable {store : Store} {hash : PaymentHash} {payment : Payment}

/-- The hash is paid: nothing starts it again, adds to it or gives it up. -/
structure Paid (store : Store) (hash : PaymentHash) : Prop where
  start : ∀ info : CreationInfo, info.hash = hash →
    store.step (.start info) = (.error .alreadyPaid, store)
  register : ∀ info, store.step (.register hash info) = (.error .alreadySucceeded, store)
  giveUp : ∀ reason, store.step (.giveUp hash reason) = (.error .alreadySucceeded, store)
  status : store.step (.status hash) = (.ok (.status .succeeded), store)

theorem paid_of_succeeded (hget : store.get? hash = .ok (some payment))
    (hstatus : payment.status = .succeeded) : store.Paid hash := by
  constructor
  · rintro info rfl
    exact step_refused rfl hget (by simp [Lifecycle.start, hstatus])
  · intro info
    exact step_refused rfl hget (by simp [Lifecycle.register, onStarted, hstatus])
  · intro reason
    exact step_refused rfl hget (by simp [Lifecycle.giveUp, onStarted, hstatus])
  · simp [step, apply, Store.status, hget, hstatus, bind, Except.bind, pure, Except.pure,
      Except.map]

theorem succeeded_ran (hsound : store.Sound) (ops : List Op)
    (hget : store.get? hash = .ok (some payment)) (hstatus : payment.status = .succeeded)
    (hremoves : ¬ store.Removes ops hash) :
    ∃ kept, (store.ran ops).get? hash = .ok (some kept) ∧ kept.status = .succeeded :=
  ran_keeps_payment (·.status = .succeeded) hsound ops hget hstatus hremoves
    fun _ _ _ hpayment hkept h _ => succeeded_of_change hpayment hkept h

theorem fresh_of_accepts {info : CreationInfo} (hsound : store.Sound)
    (haccepts : store.Accepts (.start info)) :
    (store.step (.start info)).2.get? info.hash = .ok (some (.fresh info)) := by
  obtain ⟨current, updated, _, h, hget⟩ := change_of_accepts hsound rfl haccepts
  cases h <;> exact hget

theorem succeeded_of_accepts {id : UInt64} {settlement : Settlement} (hsound : store.Sound)
    (haccepts : store.Accepts (.settle hash id settlement)) :
    ∃ payment, (store.step (.settle hash id settlement)).2.get? hash = .ok (some payment) ∧
      payment.status = .succeeded := by
  obtain ⟨current, updated, hget, h, hupdated⟩ := change_of_accepts hsound rfl haccepts
  refine ⟨updated, hupdated, succeeded_of_settle ?_ h⟩
  rintro payment rfl
  exact hsound.payments hash payment hget

theorem failed_of_accepts {info : CreationInfo} (hsound : store.Sound)
    (hget : store.get? info.hash = .ok (some payment)) (haccepts : store.Accepts (.start info)) :
    payment.status = .failed := by
  obtain ⟨current, updated, hcurrent, h, _⟩ := change_of_accepts hsound rfl haccepts
  cases hget.symm.trans hcurrent
  cases h with
  | startAgain _ hfailed => exact hfailed

theorem succeeded_of_carries {ops : List Op} {id : UInt64} {settlement : Settlement}
    (hsound : store.Sound) (hremoves : ¬ store.Removes ops hash)
    (hcarries : store.Carries ops (.settle hash id settlement)) :
    ∃ payment, (store.ran ops).get? hash = .ok (some payment) ∧ payment.status = .succeeded := by
  obtain ⟨before, later, rfl, haccepts⟩ := hcarries
  have hbefore := sound_ran hsound before
  obtain ⟨payment, hget, hstatus⟩ := succeeded_of_accepts hbefore haccepts
  -- From the settlement on, only a removal could take the success away.
  rw [ran_append, ran_cons]
  apply succeeded_ran (sound_step hbefore _) later hget hstatus
  intro h
  apply hremoves
  rw [List.append_cons]
  apply removes_append_right
  rw [ran_append]
  exact h

theorem giveUpReason_ran (hsound : store.Sound) (ops : List Op)
    (hget : store.get? hash = .ok (some payment)) (hnone : payment.giveUpReason = none)
    (hremoves : ¬ store.Removes ops hash)
    (hgiveUp : ∀ reason, ¬ store.Carries ops (.giveUp hash reason)) :
    ∃ kept, (store.ran ops).get? hash = .ok (some kept) ∧ kept.giveUpReason = none := by
  apply ran_keeps_payment (·.giveUpReason = none) hsound ops hget hnone hremoves
  intro op payment updated _ hkept h hcarries
  apply giveUpReason_of_change hkept h
  rintro reason rfl
  exact hgiveUp reason hcarries

/-- Without a deletion, a hash that starts again was given up and nothing settled it. -/
theorem givenUp_of_restart {first second : CreationInfo} {between : List Op}
    (hsound : store.Sound) (hhash : second.hash = first.hash)
    (hfirst : store.Accepts (.start first))
    (hsecond : (store.ran (.start first :: between)).Accepts (.start second))
    (hremoves : ¬ store.Removes (.start first :: between) first.hash) :
    (∃ reason, store.Carries (.start first :: between) (.giveUp first.hash reason)) ∧
      ∀ id settlement,
        ¬ store.Carries (.start first :: between) (.settle first.hash id settlement) := by
  have hreached := sound_ran hsound (.start first :: between)
  constructor
  · -- Never given up, it has no reason to be given up, but only a failed payment starts again.
    by_contra hgiveUp
    obtain ⟨payment, hget, hnone⟩ := giveUpReason_ran (sound_step hsound (.start first)) between
      (fresh_of_accepts hsound hfirst) rfl
      (fun h => hremoves (removes_append_right [.start first] h))
      fun reason h => hgiveUp ⟨reason, carries_append_right [.start first] h⟩
    rw [← hhash] at hget
    have hfailed := failed_of_accepts hreached hget hsecond
    have hsome := ((Payment.status_eq_failed_iff (hreached.payments _ _ hget)).1 hfailed).2
    rw [hnone] at hsome
    cases hsome
  · intro id settlement hcarries
    obtain ⟨payment, hget, hstatus⟩ := succeeded_of_carries hsound hremoves hcarries
    rw [← hhash] at hget
    cases (failed_of_accepts hreached hget hsecond).symm.trans hstatus

/-- Between two starts of a hash that are carried out, consecutive or not, its payment is
deleted, or it is given up and nothing settles it. Once it is settled, the hash is paid for
as long as nothing is deleted. -/
theorem exactly_once (hstore : store.Reachable) (hash : PaymentHash) :
    (∀ (first second : CreationInfo) (between : List Op),
      first.hash = hash → second.hash = hash → store.Accepts (.start first) →
      (store.ran (.start first :: between)).Accepts (.start second) →
      store.Removes (.start first :: between) hash ∨
        (∃ reason, store.Carries (.start first :: between) (.giveUp hash reason)) ∧
          ∀ id settlement,
            ¬ store.Carries (.start first :: between) (.settle hash id settlement)) ∧
    ∀ (id : UInt64) (settlement : Settlement) (later : List Op),
      store.Accepts (.settle hash id settlement) → .delete ∉ later →
      (store.ran (.settle hash id settlement :: later)).Paid hash := by
  have hsound := sound_of_reachable hstore
  constructor
  · rintro first second between rfl hhash hfirst hsecond
    by_cases hremoves : store.Removes (.start first :: between) first.hash
    · exact .inl hremoves
    · exact .inr (givenUp_of_restart hsound hhash hfirst hsecond hremoves)
  · intro id settlement later haccepts hdelete
    obtain ⟨payment, hget, hstatus⟩ := succeeded_of_accepts hsound haccepts
    obtain ⟨kept, hkept, hsucceeded⟩ := succeeded_ran (sound_step hsound _) later hget hstatus
      fun h => hdelete (delete_mem_of_removes h)
    exact paid_of_succeeded hkept hsucceeded

theorem exactly_once_settled :
    (empty.Accepts (.start Sample.creation) ∧
      (empty.ran [.start Sample.creation, .giveUp Sample.hash .timeout]).Accepts
        (.start Sample.creation) ∧
      ∃ reason, empty.Carries [.start Sample.creation, .giveUp Sample.hash .timeout]
        (.giveUp Sample.hash reason)) ∧
    Sample.registered.Accepts (.settle Sample.hash 0 Sample.settlement) ∧
      (Sample.registered.ran [.settle Sample.hash 0 Sample.settlement]).Paid Sample.hash := by
  have hfirst : empty.Accepts (.start Sample.creation) :=
    (accepts_iff Sample.consistent_empty rfl Sample.get?_empty).2 ⟨_, Sample.change_start⟩
  have hgivenUp := get?_ran Sample.consistent_empty
    [.start Sample.creation, .giveUp Sample.hash .timeout] Sample.get?_empty
  rw [List.foldl_cons, after_of_change Sample.change_start, List.foldl_cons,
    after_of_change (.giveUp (by decide)), List.foldl_nil] at hgivenUp
  have hsecond : (empty.ran [.start Sample.creation, .giveUp Sample.hash .timeout]).Accepts
      (.start Sample.creation) :=
    (accepts_iff (consistent_ran Sample.consistent_empty _) rfl hgivenUp).2
      ⟨_, .startAgain rfl rfl⟩
  have hsettle : Sample.registered.Accepts (.settle Sample.hash 0 Sample.settlement) :=
    (accepts_iff Sample.consistent_registered rfl Sample.get?_registered).2
      ⟨_, Sample.change_settle⟩
  refine ⟨⟨hfirst, hsecond, ?_⟩, hsettle, ?_⟩
  · rcases (exactly_once ⟨none, [], rfl⟩ Sample.hash).1 _ _ [.giveUp Sample.hash .timeout]
      rfl rfl hfirst hsecond with hremoves | ⟨hcarries, _⟩
    · exact absurd (delete_mem_of_removes hremoves) (by simp)
    · exact hcarries
  · exact (exactly_once ⟨none, _, rfl⟩ Sample.hash).2 0 Sample.settlement [] hsettle nofun

end Store

end Lightpay
