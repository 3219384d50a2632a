import Lightpay.Proofs.Lifecycle.Soundness
import Lightpay.Proofs.Store.Transaction

/-! Sums that stop at the largest amount. Stopping on the way and stopping at the end come to the
same, so a sum is decided by the exact one. What a payment has sent follows its attempts: nothing
is lost when they settle, and what one that fails gives back is exact again. -/

namespace Lightpay

namespace Amount

/-- The sum in numbers without a bound. -/
def exactSum : List Amount → Nat
  | [] => 0
  | amount :: amounts => amount.msat.toNat + exactSum amounts

theorem exactSum_append (left right : List Amount) :
    exactSum (left ++ right) = exactSum left + exactSum right := by
  induction left with
  | nil => exact (Nat.zero_add _).symm
  | cons amount left ih => rw [List.cons_append, exactSum, ih, exactSum, Nat.add_assoc]

theorem exactSum_perm {left right : List Amount} (h : left.Perm right) :
    exactSum left = exactSum right := by
  induction h with
  | nil => rfl
  | cons amount _ ih => rw [exactSum, exactSum, ih]
  | swap first second rest => exact Nat.add_left_comm _ _ _
  | trans _ _ ihleft ihright => exact ihleft.trans ihright

theorem toNat_ofNatSaturating (n : Nat) :
    (ofNatSaturating n).msat.toNat = min (UInt64.size - 1) n := by
  have hlt : min n (UInt64.size - 1) < UInt64.size :=
    Nat.lt_of_le_of_lt (Nat.min_le_right _ _) (by decide)
  rw [ofNatSaturating, UInt64.toNat_ofNat_of_lt' hlt, Nat.min_comm]

theorem toNat_add (a b : Amount) :
    (a + b).msat.toNat = min (UInt64.size - 1) (a.msat.toNat + b.msat.toNat) :=
  toNat_ofNatSaturating _

theorem toNat_le (a : Amount) : a.msat.toNat ≤ UInt64.size - 1 :=
  Nat.le_sub_one_of_lt a.msat.toNat_lt

/-- Once the largest amount is reached, it stays. -/
theorem toNat_foldl_add (amounts : List Amount) (start : Amount) :
    (amounts.foldl (· + ·) start).msat.toNat =
      min (UInt64.size - 1) (start.msat.toNat + exactSum amounts) := by
  -- The sum may be clamped on the way, so the start is any amount.
  induction amounts generalizing start with
  | nil => exact (Nat.min_eq_right start.toNat_le).symm
  | cons amount amounts ih =>
    rw [List.foldl_cons, ih, toNat_add, exactSum]
    omega

theorem toNat_sum (amounts : List Amount) :
    (sum amounts).msat.toNat = min (UInt64.size - 1) (exactSum amounts) := by
  rw [sum, toNat_foldl_add]
  exact congrArg _ (Nat.zero_add _)

theorem eq_of_toNat_eq {a b : Amount} (h : a.msat.toNat = b.msat.toNat) : a = b :=
  congrArg mk (UInt64.toNat.inj h)

theorem sum_perm {left right : List Amount} (h : left.Perm right) : sum left = sum right := by
  apply eq_of_toNat_eq
  rw [toNat_sum, toNat_sum, exactSum_perm h]

end Amount

def Attempt.Failed (attempt : Attempt) : Prop := ∃ failure, attempt.outcome = .failed failure

theorem Attempt.failure?_isSome (attempt : Attempt) :
    attempt.failure?.isSome = true ↔ attempt.Failed := by
  rw [failure?, Failed]
  cases attempt.outcome <;> simp

instance (attempt : Attempt) : Decidable attempt.Failed :=
  decidable_of_iff _ attempt.failure?_isSome

namespace Payment

/-- What the attempts that have not failed send, in numbers without a bound. -/
def exactSent (attempts : List Attempt) : Nat :=
  Amount.exactSum ((attempts.filter (¬ ·.Failed)).map (·.info.route.amount))

theorem exactSent_append (left right : List Attempt) :
    exactSent (left ++ right) = exactSent left + exactSent right := by
  rw [exactSent, List.filter_append, List.map_append, Amount.exactSum_append]
  rfl

theorem exactSent_singleton (attempt : Attempt) : exactSent [attempt] =
    if attempt.Failed then 0 else attempt.info.route.amount.msat.toNat := by
  rw [exactSent, List.filter_singleton]
  by_cases hfailed : attempt.Failed <;> simp [hfailed, Amount.exactSum]

theorem exactSent_middle (before after : List Attempt) (attempt : Attempt) :
    exactSent (before ++ attempt :: after) = exactSent (before ++ after) +
      if attempt.Failed then 0 else attempt.info.route.amount.msat.toNat := by
  rw [List.append_cons, exactSent_append, exactSent_append, exactSent_append, exactSent_singleton]
  exact Nat.add_right_comm _ _ _

theorem toNat_sentAmount (payment : Payment) :
    payment.sentAmount.msat.toNat = min (UInt64.size - 1) (exactSent payment.attempts) := by
  have hfilter : payment.attempts.filter (·.failure?.isNone) =
      payment.attempts.filter (¬ ·.Failed) := by
    refine List.filter_congr fun attempt _ => ?_
    rw [Bool.eq_iff_iff, decide_eq_true_iff, ← attempt.failure?_isSome,
      Option.not_isSome_iff_eq_none, Option.isNone_iff_eq_none]
  rw [sentAmount, Amount.toNat_sum, hfilter, exactSent]

theorem sentAmount_eq {left right : Payment}
    (h : exactSent left.attempts = exactSent right.attempts) :
    left.sentAmount = right.sentAmount := by
  apply Amount.eq_of_toNat_eq
  rw [toNat_sentAmount, toNat_sentAmount, h]

end Payment

namespace Store

open Lifecycle Payment

variable {store reached : Store} {hash : PaymentHash} {after : Payment}

theorem exists_change {op : Op} {transition : Transition}
    (hop : op.transition? = some (hash, transition))
    (h : store.update hash transition = .ok (after, reached)) :
    ∃ current, store.get? hash = .ok current ∧ reached.get? hash = .ok (some after) ∧
      Change hash op current after := by
  obtain ⟨current, hget, hok, _, rfl⟩ := update_eq_ok_iff.1 h
  refine ⟨current, hget, ?_, (transition_ok_iff hop current after).1 hok⟩
  rw [get?_put, if_pos rfl]

theorem sent_of_register {info : AttemptInfo}
    (h : store.register hash info = .ok (after, reached)) :
    ∃ before, store.get? hash = .ok (some before) ∧ reached.get? hash = .ok (some after) ∧
      before.sentAmount.msat ≤ after.sentAmount.msat := by
  have hop : (Op.register hash info).transition? = some (hash, Lifecycle.register info) := rfl
  obtain ⟨current, hget, hreached, hchange⟩ := exists_change hop h
  cases hchange with
  | @register _ before =>
    refine ⟨before, hget, hreached, ?_⟩
    rw [UInt64.le_iff_toNat_le, toNat_sentAmount, toNat_sentAmount, append, exactSent_append]
    omega

theorem sent_of_settle {id : UInt64} {settlement : Settlement}
    (h : store.settle hash id settlement = .ok (after, reached)) :
    ∃ before, store.get? hash = .ok (some before) ∧ reached.get? hash = .ok (some after) ∧
      after.sentAmount = before.sentAmount := by
  have hop : (Op.settle hash id settlement).transition? =
      some (hash, Lifecycle.settle hash id settlement) := rfl
  obtain ⟨current, hget, hreached, hchange⟩ := exists_change hop h
  cases hchange with
  | @settle _ _ before info _ hpending =>
    refine ⟨before, hget, hreached, sentAmount_eq ?_⟩
    obtain ⟨front, back, hbefore, hset⟩ := exists_split_setOutcome hpending (.settled settlement)
    change exactSent (before.setOutcome id (.settled settlement)).attempts = _
    have hold : ¬ Attempt.Failed ⟨info, .pending⟩ := nofun
    have hnew : ¬ Attempt.Failed ⟨info, .settled settlement⟩ := nofun
    rw [hset, hbefore, exactSent_middle, exactSent_middle, if_neg hold, if_neg hnew]

theorem sent_of_failAttempt {id : UInt64} {failure : AttemptFailure}
    (h : store.failAttempt hash id failure = .ok (after, reached)) :
    ∃ before info front back, store.get? hash = .ok (some before) ∧
      reached.get? hash = .ok (some after) ∧ info.id = id ∧
      before.attempts = front ++ ⟨info, .pending⟩ :: back ∧
      after.attempts = front ++ ⟨info, .failed failure⟩ :: back ∧
      after.sentAmount.msat.toNat = min (UInt64.size - 1) (exactSent (front ++ back)) := by
  have hop : (Op.failAttempt hash id failure).transition? =
      some (hash, Lifecycle.failAttempt id failure) := rfl
  obtain ⟨current, hget, hreached, hchange⟩ := exists_change hop h
  cases hchange with
  | @failAttempt _ _ before info hpending =>
    obtain ⟨front, back, hbefore, hset⟩ := exists_split_setOutcome hpending (.failed failure)
    have hid : info.id = id := id_of_attempt? hpending
    have hfailed : Attempt.Failed ⟨info, .failed failure⟩ := ⟨failure, rfl⟩
    refine ⟨before, info, front, back, hget, hreached, hid, hbefore, hset, ?_⟩
    rw [toNat_sentAmount, hset, exactSent_middle, if_pos hfailed, Nat.add_zero]

/-- A sum is the exact one up to the largest amount, whatever the order. So is what the attempts
of a payment send that have not failed. A registration never lowers it, a settlement leaves it as
it is, and after a failure it is what the other attempts send, even if the sum had been cut off
before. -/
theorem sent_saturates :
    (∀ amounts : List Amount, (Amount.sum amounts).msat.toNat =
      min (UInt64.size - 1) (Amount.exactSum amounts)) ∧
    (∀ left right : List Amount, left.Perm right → Amount.sum left = Amount.sum right) ∧
    (∀ payment : Payment, payment.sentAmount.msat.toNat =
      min (UInt64.size - 1) (exactSent payment.attempts)) ∧
    (∀ (store reached : Store) (hash : PaymentHash) (info : AttemptInfo) (after : Payment),
      store.register hash info = .ok (after, reached) →
        ∃ before, store.get? hash = .ok (some before) ∧ reached.get? hash = .ok (some after) ∧
          before.sentAmount.msat ≤ after.sentAmount.msat) ∧
    (∀ (store reached : Store) (hash : PaymentHash) (id : UInt64) (settlement : Settlement)
      (after : Payment), store.settle hash id settlement = .ok (after, reached) →
        ∃ before, store.get? hash = .ok (some before) ∧ reached.get? hash = .ok (some after) ∧
          after.sentAmount = before.sentAmount) ∧
    ∀ (store reached : Store) (hash : PaymentHash) (id : UInt64) (failure : AttemptFailure)
      (after : Payment), store.failAttempt hash id failure = .ok (after, reached) →
        ∃ before info front back, store.get? hash = .ok (some before) ∧
          reached.get? hash = .ok (some after) ∧ info.id = id ∧
          before.attempts = front ++ ⟨info, .pending⟩ :: back ∧
          after.attempts = front ++ ⟨info, .failed failure⟩ :: back ∧
          after.sentAmount.msat.toNat = min (UInt64.size - 1) (exactSent (front ++ back)) :=
  ⟨Amount.toNat_sum, fun _ _ => Amount.sum_perm, toNat_sentAmount,
    fun _ _ _ _ _ => sent_of_register, fun _ _ _ _ _ _ => sent_of_settle,
    fun _ _ _ _ _ _ => sent_of_failAttempt⟩

end Store

namespace Sample

def largest : Amount := ⟨0xffffffffffffffff⟩

def crowded : Payment :=
  ⟨creation, [⟨{ attempt with route := { route with amount := largest } }, .pending⟩,
    ⟨{ attempt with id := 1 }, .pending⟩], none, none⟩

def full : Store := Store.empty.put hash crowded

theorem get?_full : full.get? hash = .ok (some crowded) := by
  rw [full, Store.get?_put, if_pos rfl]

end Sample

theorem Store.sent_saturates_freed :
    Amount.sum [Sample.largest, ⟨1⟩] = Amount.sum [⟨1⟩, Sample.largest] ∧
    Sample.crowded.sentAmount = Sample.largest ∧
    (∃ after reached,
      Sample.full.register Sample.hash { Sample.attempt with id := 2 } = .ok (after, reached) ∧
        Sample.crowded.sentAmount.msat ≤ after.sentAmount.msat) ∧
    (∃ after reached,
      Sample.full.settle Sample.hash 0 Sample.settlement = .ok (after, reached) ∧
        after.sentAmount = Sample.crowded.sentAmount) ∧
    ∃ after reached,
      Sample.full.failAttempt Sample.hash 0 Sample.failure = .ok (after, reached) ∧
        after.sentAmount = ⟨1000⟩ := by
  obtain ⟨_, hperm, _, hregister, hsettle, hfail⟩ := sent_saturates
  have hget := Sample.get?_full
  refine ⟨hperm _ _ (.swap _ _ _), by decide +kernel, ?_, ?_, ?_⟩
  · have hok : Sample.full.register Sample.hash { Sample.attempt with id := 2 } = .ok _ :=
      update_ok _ _ _ _ _ hget rfl rfl
    obtain ⟨before, hbefore, _, hle⟩ := hregister _ _ _ _ _ hok
    cases hget.symm.trans hbefore
    exact ⟨_, _, hok, hle⟩
  · have hchange :=
      @Lifecycle.Change.settle Sample.hash 0 Sample.settlement Sample.crowded _ rfl rfl
    have hok : Sample.full.settle Sample.hash 0 Sample.settlement = .ok _ :=
      update_ok _ _ _ _ _ hget ((Lifecycle.settle_ok_iff ..).2 hchange) rfl
    obtain ⟨before, hbefore, _, heq⟩ := hsettle _ _ _ _ _ _ hok
    cases hget.symm.trans hbefore
    exact ⟨_, _, hok, heq⟩
  · have hok : Sample.full.failAttempt Sample.hash 0 Sample.failure = .ok _ :=
      update_ok _ _ _ _ _ hget rfl rfl
    obtain ⟨before, info, front, back, hbefore, _, hid, hsplit, _, hsent⟩ :=
      hfail _ _ _ _ _ _ hok
    cases hget.symm.trans hbefore
    rcases front with _ | ⟨first, front⟩
    · cases (List.cons.inj hsplit).2
      exact ⟨_, _, hok, Amount.eq_of_toNat_eq (hsent.trans (by decide +kernel))⟩
    · -- The attempt behind the first has another id.
      have hmem : ⟨info, .pending⟩ ∈ Sample.crowded.attempts.tail := by
        rw [hsplit]
        exact List.mem_append_right _ List.mem_cons_self
      cases List.mem_singleton.1 hmem
      cases hid

end Lightpay
