import Lightpay.Proofs.Lifecycle.Change
import Lightpay.Proofs.Store.Atomicity
import Lightpay.Sender

/-! Undoing a registration, over stores of any content. The action may run any number of times, at
any times: the first run decides about the answer and about the store, and it spares every attempt
that has an outcome or another id. -/

namespace Lightpay

open Lifecycle

namespace Payment

variable {id : UInt64}

/-- The later record is the earlier one, except for outcomes of pending attempts with the id. -/
structure Spares (id : UInt64) (earlier later : Payment) : Prop where
  info_eq : later.info = earlier.info
  giveUpReason_eq : later.giveUpReason = earlier.giveUpReason
  settledId_eq : later.settledId = earlier.settledId
  infos_eq : later.attempts.map (·.info) = earlier.attempts.map (·.info)
  kept : ∀ (place : Nat) (attempt : Attempt), earlier.attempts[place]? = some attempt →
    attempt.Resolved ∨ attempt.id ≠ id → later.attempts[place]? = some attempt

theorem spares_refl (id : UInt64) (payment : Payment) : payment.Spares id payment :=
  ⟨rfl, rfl, rfl, rfl, fun _ _ hattempt _ => hattempt⟩

theorem spares_setOutcome {payment : Payment} {info : AttemptInfo}
    (hpending : payment.attempt? id = some ⟨info, .pending⟩) (outcome : Outcome) :
    payment.Spares id (payment.setOutcome id outcome) := by
  refine ⟨rfl, rfl, rfl, payment.map_info_setOutcome id outcome, ?_⟩
  intro place attempt hattempt hspared
  obtain ⟨before, after, hattempts, hset⟩ := exists_split_setOutcome hpending outcome
  have hid : Attempt.id ⟨info, .pending⟩ = id := id_of_attempt? hpending
  rw [hattempts] at hattempt
  rw [hset]
  -- The attempt in the middle is pending and has the id, so it is none that is to be spared.
  rcases Nat.lt_trichotomy place before.length with hlt | rfl | hgt
  · rw [List.getElem?_append_left hlt] at hattempt ⊢
    exact hattempt
  · rw [List.getElem?_append_right (Nat.le_refl _), Nat.sub_self] at hattempt
    cases hattempt
    exact absurd hspared (not_or.2 ⟨not_not.2 rfl, not_not.2 hid⟩)
  · have hle : before.length ≤ place := Nat.le_of_lt hgt
    rw [List.getElem?_append_right hle] at hattempt ⊢
    obtain ⟨behind, hbehind⟩ := Nat.exists_eq_add_of_lt hgt
    rw [hbehind, Nat.add_assoc, Nat.add_sub_cancel_left] at hattempt ⊢
    exact hattempt

end Payment

theorem Store.holds_put (store : Store) (hash : PaymentHash) (payment : Payment) :
    (store.put hash payment).Holds hash (some payment) :=
  get?_eq_ok_iff.1 (by rw [get?_put, if_pos rfl])

namespace FailUndispatched

variable {action : FailUndispatched} {now : UInt64} {store : Store}

/-- All that a run can come to, by what the store holds. -/
inductive Undoes (action : FailUndispatched) (now : UInt64) (store : Store) :
    Except Error Unit → Store → Prop
  | unreadable (htext : store.Unreadable action.hash) :
    Undoes action now store (.error .unreadable) store
  | notInitiated (hnothing : store.Holds action.hash none) :
    Undoes action now store (.error .notInitiated) store
  | attemptNotFound {payment : Payment} (hholds : store.Holds action.hash (some payment))
      (hattempt : payment.attempt? action.id = none) :
    Undoes action now store (.error (.attemptNotFound action.id)) store
  | resolved {payment : Payment} {attempt : Attempt}
      (hholds : store.Holds action.hash (some payment))
      (hattempt : payment.attempt? action.id = some attempt) (hresolved : attempt.Resolved) :
    Undoes action now store (.ok ()) store
  | mismatched {payment : Payment} {info : AttemptInfo}
      (hholds : store.Holds action.hash (some payment))
      (hpending : payment.attempt? action.id = some ⟨info, .pending⟩)
      (hhash : payment.info.hash ≠ action.hash) :
    Undoes action now store (.error (.mismatchedKey action.hash)) store
  | failed {payment : Payment} {info : AttemptInfo}
      (hholds : store.Holds action.hash (some payment))
      (hpending : payment.attempt? action.id = some ⟨info, .pending⟩)
      (hhash : payment.info.hash = action.hash) :
    Undoes action now store (.ok ()) (store.put action.hash
      (payment.setOutcome action.id (.failed ⟨.internalError, now, none⟩)))

theorem exists_undoes (action : FailUndispatched) (now : UInt64) (store : Store) :
    ∃ answer reached, Undoes action now store answer reached := by
  cases htext : store.payments.get? action.hash with
  | none => exact ⟨_, _, .notInitiated (.nothing htext)⟩
  | some text =>
    cases hparse : Payment.parse? text with
    | none => exact ⟨_, _, .unreadable ⟨text, htext, hparse⟩⟩
    | some payment =>
      have hholds : store.Holds action.hash (some payment) := .payment htext hparse
      cases hattempt : payment.attempt? action.id with
      | none => exact ⟨_, _, .attemptNotFound hholds hattempt⟩
      | some attempt =>
        by_cases hresolved : attempt.Resolved
        · exact ⟨_, _, .resolved hholds hattempt hresolved⟩
        · obtain ⟨info, outcome⟩ := attempt
          cases not_not.1 hresolved
          by_cases hhash : payment.info.hash = action.hash
          · exact ⟨_, _, .failed hholds hattempt hhash⟩
          · exact ⟨_, _, .mismatched hholds hattempt hhash⟩

theorem run_of_undoes {answer : Except Error Unit} {reached : Store}
    (h : Undoes action now store answer reached) : action.run now store = (answer, reached) := by
  rw [run, Store.failAttempt]
  cases h with
  | unreadable htext => rw [Store.update_of_unreadable htext]
  | notInitiated hnothing =>
    rw [Store.update_error store _ _ _ .notInitiated (Store.get?_eq_ok_iff.2 hnothing) rfl]
  | attemptNotFound hholds hattempt =>
    rw [Store.update_error store _ _ _ (.attemptNotFound action.id)
      (Store.get?_eq_ok_iff.2 hholds)]
    rw [Lifecycle.failAttempt, onStarted, resolve, hattempt]
  | resolved hholds hattempt hresolved =>
    rw [Store.update_error store _ _ _ (.attemptAlreadyResolved action.id)
      (Store.get?_eq_ok_iff.2 hholds)]
    rw [Lifecycle.failAttempt, onStarted, resolve, hattempt]
    exact if_pos hresolved
  | @mismatched payment info hholds hpending hhash =>
    have hchange : Change action.hash
        (.failAttempt action.hash action.id ⟨.internalError, now, none⟩) _ _ :=
      .failAttempt hpending
    rw [Store.update_eq_error_iff.2 (.inr ⟨_, Store.get?_eq_ok_iff.2 hholds,
      .inr ⟨_, (failAttempt_ok_iff ..).2 hchange, hhash, rfl⟩⟩)]
  | @failed payment info hholds hpending hhash =>
    have hchange : Change action.hash
        (.failAttempt action.hash action.id ⟨.internalError, now, none⟩) _ _ :=
      .failAttempt hpending
    rw [Store.update_ok store _ _ _ _ (Store.get?_eq_ok_iff.2 hholds)
      ((failAttempt_ok_iff ..).2 hchange) hhash]

/-- Runs the action at each of the times. -/
def runAll (action : FailUndispatched) (times : List UInt64) (store : Store) :
    List (Except Error Unit) × Store :=
  UndoStack.runAll (fun now => action.run now) times store

section

variable {answer : Except Error Unit} {reached : Store}

/-- After a run, another one changes nothing and answers the same. -/
theorem undoes_again (h : Undoes action now store answer reached) (later : UInt64) :
    Undoes action later reached answer reached := by
  cases h with
  | unreadable htext => exact .unreadable htext
  | notInitiated hnothing => exact .notInitiated hnothing
  | attemptNotFound hholds hattempt => exact .attemptNotFound hholds hattempt
  | resolved hholds hattempt hresolved => exact .resolved hholds hattempt hresolved
  | mismatched hholds hpending hhash => exact .mismatched hholds hpending hhash
  | @failed payment info hholds hpending hhash =>
    -- The attempt that was failed is now found resolved.
    have hattempt := payment.attempt?_setOutcome action.id action.id
      (.failed ⟨.internalError, now, none⟩)
    rw [if_pos rfl, hpending, Option.map_some] at hattempt
    exact .resolved (store.holds_put action.hash _) hattempt Outcome.noConfusion

theorem runAll_of_undoes (h : Undoes action now store answer reached) (later : List UInt64) :
    action.runAll (now :: later) store = (List.replicate (later.length + 1) answer, reached) := by
  induction later generalizing now store with
  | nil =>
    rw [runAll, UndoStack.runAll, run_of_undoes h]
    rfl
  | cons next later ih =>
    have hrest := ih (undoes_again h next)
    rw [runAll] at hrest ⊢
    rw [UndoStack.runAll, run_of_undoes h]
    dsimp only
    rw [hrest]
    rfl

theorem text_of_undoes (h : Undoes action now store answer reached) {other : PaymentHash}
    (hother : other ≠ action.hash) :
    reached.payments.get? other = store.payments.get? other := by
  cases h with
  | failed => rw [Store.put, Store.Table.get?_insert, if_neg hother.symm]
  | _ => rfl

theorem version_of_undoes (h : Undoes action now store answer reached) :
    reached.version = store.version := by
  cases h <;> rfl

theorem unchanged_of_undoes (h : Undoes action now store answer reached)
    (hnone : ∀ payment, ¬ store.Holds action.hash (some payment)) : reached = store := by
  cases h with
  | failed hholds => exact absurd hholds (hnone _)
  | _ => rfl

theorem spares_of_undoes (h : Undoes action now store answer reached) {payment : Payment}
    (hholds : store.Holds action.hash (some payment)) :
    ∃ left, reached.Holds action.hash (some left) ∧ payment.Spares action.id left := by
  cases h with
  | @failed stored info hstored hpending hhash =>
    cases (Store.get?_eq_ok_iff.2 hholds).symm.trans (Store.get?_eq_ok_iff.2 hstored)
    exact ⟨_, store.holds_put action.hash _, Payment.spares_setOutcome hpending _⟩
  | _ => exact ⟨payment, hholds, payment.spares_refl action.id⟩

end

/-- Whatever the store contains, running the action many times is running it once: the store is the
same, and so is every answer. Texts under other hashes stay, and under the action's own hash all
stays but the outcome of a pending attempt with its id. -/
theorem run_repeated (action : FailUndispatched) (store : Store) (now : UInt64) :
    ∃ answer reached, Undoes action now store answer reached ∧
      (∀ later, action.runAll (now :: later) store =
        (List.replicate (later.length + 1) answer, reached)) ∧
      reached.version = store.version ∧
      (∀ other ≠ action.hash, reached.payments.get? other = store.payments.get? other) ∧
      (∀ payment, store.Holds action.hash (some payment) →
        ∃ left, reached.Holds action.hash (some left) ∧ payment.Spares action.id left) ∧
      ((∀ payment, ¬ store.Holds action.hash (some payment)) → reached = store) := by
  obtain ⟨answer, reached, h⟩ := exists_undoes action now store
  exact ⟨answer, reached, h, runAll_of_undoes h, version_of_undoes h,
    fun _ => text_of_undoes h, fun _ => spares_of_undoes h, unchanged_of_undoes h⟩

end FailUndispatched

end Lightpay
