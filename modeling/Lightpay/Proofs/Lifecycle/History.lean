import Lightpay.Proofs.Lifecycle.Soundness

/-! What a payment has recorded stays recorded until it starts afresh or is deleted.
Attempts keep their places, outcomes are final, and so is the settlement. -/

namespace Lightpay

namespace Payment

/-- The later record of a payment says all that the earlier one says. -/
structure Extends (earlier later : Payment) : Prop where
  info_eq : later.info = earlier.info
  infos_prefix : earlier.attempts.map (·.info) <+: later.attempts.map (·.info)
  resolved_kept : ∀ (place : Nat) (attempt : Attempt),
    earlier.attempts[place]? = some attempt → attempt.Resolved →
      later.attempts[place]? = some attempt
  settledId_kept : ∀ id, earlier.settledId = some id → later.settledId = some id

variable {earlier later payment : Payment}

theorem extends_refl (payment : Payment) : payment.Extends payment :=
  ⟨rfl, List.prefix_rfl, fun _ _ hattempt _ => hattempt, fun _ hid => hid⟩

theorem extends_trans {middle : Payment} (hfirst : earlier.Extends middle)
    (hsecond : middle.Extends later) : earlier.Extends later := by
  constructor
  · exact hsecond.info_eq.trans hfirst.info_eq
  · exact hfirst.infos_prefix.trans hsecond.infos_prefix
  · intro place attempt hattempt hresolved
    exact hsecond.resolved_kept place attempt
      (hfirst.resolved_kept place attempt hattempt hresolved) hresolved
  · intro id hid
    exact hsecond.settledId_kept id (hfirst.settledId_kept id hid)

theorem extends_append (payment : Payment) (attempt : Attempt) :
    payment.Extends (payment.append attempt) := by
  constructor
  · rfl
  · rw [append, List.map_append]
    exact List.prefix_append _ _
  · intro place old hold _
    have hplace : place < payment.attempts.length := (List.getElem?_eq_some_iff.1 hold).1
    rw [append, List.getElem?_append_left hplace]
    exact hold
  · exact fun _ hid => hid

/-- Recording an outcome for a pending attempt touches no resolved one. -/
theorem extends_setOutcome (hids : payment.DistinctIds) {id : UInt64} {info : AttemptInfo}
    (hpending : payment.attempt? id = some ⟨info, .pending⟩) (outcome : Outcome) :
    payment.Extends (payment.setOutcome id outcome) := by
  constructor
  · rfl
  · simp only [map_info_setOutcome, List.prefix_rfl]
  · intro place attempt hattempt hresolved
    -- Ids are distinct, so the only attempt with the id is the pending one.
    have hid : attempt.id ≠ id := by
      rintro rfl
      cases (attempt?_of_mem hids (List.mem_of_getElem? hattempt)).symm.trans hpending
      exact hresolved rfl
    rw [attempts_setOutcome hids, List.getElem?_map, hattempt, Option.map_some,
      attempt.recorded_of_ne outcome hid]
  · exact fun _ hid => hid

theorem extends_recordSettle (payment : Payment) (id : UInt64) (reason : Option GiveUpReason) :
    payment.Extends { payment.recordSettle id with giveUpReason := reason } := by
  refine ⟨rfl, List.prefix_rfl, fun _ _ hattempt _ => hattempt, fun first hfirst => ?_⟩
  rw [recordSettle, hfirst, Option.getD_some]

theorem settledAttempt?_of_extends {hash : PaymentHash} (hsound : later.Sound hash)
    (h : earlier.Extends later) {attempt : Attempt}
    (hsettled : earlier.settledAttempt? = some attempt) :
    later.settledAttempt? = some attempt := by
  obtain ⟨hid, hattempt, houtcome⟩ := settledAttempt?_eq_some_iff.1 hsettled
  obtain ⟨place, hplace⟩ := List.getElem?_of_mem (mem_of_attempt? hattempt)
  have hkept := h.resolved_kept place attempt hplace (Attempt.resolved_of_settled houtcome)
  refine settledAttempt?_eq_some_iff.2 ⟨h.settledId_kept _ hid, ?_, houtcome⟩
  exact attempt?_of_mem hsound.distinct_ids (List.mem_of_getElem? hkept)

end Payment

open Lifecycle

theorem Lifecycle.extends_of_change {hash : PaymentHash} {op : Op} {payment updated : Payment}
    (h : Change hash op (some payment) updated)
    (hstart : ∀ info : CreationInfo, info.hash = hash → op ≠ .start info)
    (hids : payment.DistinctIds) : payment.Extends updated := by
  cases h with
  | startAgain hhash => exact absurd rfl (hstart _ hhash)
  | @register info => exact payment.extends_append ⟨info, .pending⟩
  | @failAttempt _ failure _ _ hpending =>
    exact Payment.extends_setOutcome hids hpending (.failed failure)
  | giveUp => exact ⟨rfl, List.prefix_rfl, fun _ _ hattempt _ => hattempt, fun _ hid => hid⟩
  | @settle id settlement _ _ _ hpending =>
    exact Payment.extends_trans
      (Payment.extends_setOutcome hids hpending (.settled settlement))
      (Payment.extends_recordSettle _ id none)

namespace Store

variable {store : Store} {hash : PaymentHash}

theorem extends_ran (hsound : store.Sound) {earlier : Payment}
    (hget : store.get? hash = .ok (some earlier)) (between : List Op)
    (hstart : ∀ info : CreationInfo, info.hash = hash → ¬ store.Carries between (.start info))
    (hremoves : ¬ store.Removes between hash) :
    ∃ later, (store.ran between).get? hash = .ok (some later) ∧ earlier.Extends later := by
  apply ran_keeps_payment earlier.Extends hsound between hget earlier.extends_refl hremoves
  intro op payment updated hpayment hreached h hcarries
  refine Payment.extends_trans hreached (extends_of_change h ?_ hpayment.distinct_ids)
  rintro info hhash rfl
  exact hstart info hhash hcarries

/-- Between any two states of a run, a payment that is neither started afresh nor deleted keeps
its creation, the places of its attempts, every outcome and its settlement. -/
theorem history_kept (hreachable : store.Reachable) {earlier : Payment}
    (hget : store.get? hash = .ok (some earlier)) (between : List Op)
    (hstart : ∀ info : CreationInfo, info.hash = hash → ¬ store.Carries between (.start info))
    (hremoves : ¬ store.Removes between hash) :
    ∃ later, (store.ran between).get? hash = .ok (some later) ∧ earlier.Extends later ∧
      ∀ attempt, earlier.settledAttempt? = some attempt →
        later.settledAttempt? = some attempt := by
  have hsound := sound_of_reachable hreachable
  obtain ⟨later, hlater, hextends⟩ := extends_ran hsound hget between hstart hremoves
  have hsoundLater := (sound_ran hsound between).payments hash later hlater
  refine ⟨later, hlater, hextends, fun attempt hsettled => ?_⟩
  exact Payment.settledAttempt?_of_extends hsoundLater hextends hsettled

end Store

namespace Sample

def paid : Store := Store.empty.ran
  [.start creation, .register hash attempt, .settle hash 0 settlement]

theorem paid_reachable : paid.Reachable := ⟨none, _, rfl⟩

theorem get?_paid : paid.get? hash = .ok (some settled) := by
  rw [paid, Store.get?_ran consistent_empty _ get?_empty, foldl_after_of_change _ change_start,
    foldl_after_of_change _ change_register, foldl_after_of_change _ change_settle,
    List.foldl_nil]

end Sample

theorem Store.history_kept_settled : ∃ later,
    (Sample.paid.ran [.failAttempt Sample.hash 0 Sample.failure,
      .settle Sample.hash 0 ⟨Sample.preimage, 0⟩]).get? Sample.hash = .ok (some later) ∧
    Sample.settled.Extends later ∧
    later.settledAttempt? = some ⟨Sample.attempt, .settled Sample.settlement⟩ := by
  obtain ⟨later, hlater, hextends, hsettled⟩ := history_kept Sample.paid_reachable
    Sample.get?_paid [.failAttempt Sample.hash 0 Sample.failure,
      .settle Sample.hash 0 ⟨Sample.preimage, 0⟩]
    (fun info _ hcarries => by simpa using mem_of_carries hcarries)
    (fun hremoves => by simpa using delete_mem_of_removes hremoves)
  exact ⟨later, hlater, hextends, hsettled _ rfl⟩

end Lightpay
