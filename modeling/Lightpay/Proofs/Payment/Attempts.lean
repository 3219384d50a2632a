import Lightpay.Payment.Basic
import Mathlib.Data.List.Nodup

/-! Attempts of a payment, found by their ids. Recording an outcome keeps the
infos of all attempts, and with them the ids and their order. -/

namespace Lightpay

def Attempt.Settled (attempt : Attempt) : Prop :=
  ∃ settlement, attempt.outcome = .settled settlement

theorem Attempt.settlement?_isSome (attempt : Attempt) :
    attempt.settlement?.isSome = true ↔ attempt.Settled := by
  rw [settlement?, Settled]
  cases attempt.outcome <;> simp

theorem Attempt.resolved_of_settled {attempt : Attempt} (h : attempt.Settled) :
    attempt.Resolved := by
  obtain ⟨settlement, hsettled⟩ := h
  rw [Resolved, hsettled]
  exact Outcome.noConfusion

def Attempt.recorded (id : UInt64) (outcome : Outcome) (attempt : Attempt) : Attempt :=
  if attempt.id = id then { attempt with outcome } else attempt

theorem Attempt.recorded_of_ne {id : UInt64} {attempt : Attempt} (outcome : Outcome)
    (h : attempt.id ≠ id) : attempt.recorded id outcome = attempt := if_neg h

namespace Payment

def DistinctIds (payment : Payment) : Prop := (payment.attempts.map (·.id)).Nodup

theorem id_of_attempt? {payment : Payment} {id : UInt64} {attempt : Attempt}
    (h : payment.attempt? id = some attempt) : attempt.id = id := by
  simpa using List.find?_some h

theorem mem_of_attempt? {payment : Payment} {id : UInt64} {attempt : Attempt}
    (h : payment.attempt? id = some attempt) : attempt ∈ payment.attempts :=
  List.mem_of_find?_eq_some h

theorem attempt?_eq_none_iff {payment : Payment} {id : UInt64} :
    payment.attempt? id = none ↔ id ∉ payment.attempts.map (·.id) := by
  simp [attempt?]

theorem attempt?_of_mem {payment : Payment} {attempt : Attempt} (hids : payment.DistinctIds)
    (h : attempt ∈ payment.attempts) : payment.attempt? attempt.id = some attempt := by
  cases hfind : payment.attempt? attempt.id with
  | none => exact absurd (List.mem_map_of_mem h) (attempt?_eq_none_iff.1 hfind)
  | some other =>
    have heq := List.inj_on_of_nodup_map hids (mem_of_attempt? hfind) h (id_of_attempt? hfind)
    rw [heq]

theorem settledAttempt?_eq_some_iff {payment : Payment} {attempt : Attempt} :
    payment.settledAttempt? = some attempt ↔ payment.settledId = some attempt.id ∧
      payment.attempt? attempt.id = some attempt ∧ attempt.Settled := by
  rw [settledAttempt?, Option.filter_eq_some_iff, Option.bind_eq_some_iff,
    attempt.settlement?_isSome]
  constructor
  · rintro ⟨⟨id, hid, hattempt⟩, hsettled⟩
    cases id_of_attempt? hattempt
    exact ⟨hid, hattempt, hsettled⟩
  · rintro ⟨hid, hattempt, hsettled⟩
    exact ⟨⟨attempt.id, hid, hattempt⟩, hsettled⟩

theorem mem_iff_attempt? {payment : Payment} {attempt : Attempt} (hids : payment.DistinctIds) :
    attempt ∈ payment.attempts ↔ payment.attempt? attempt.id = some attempt :=
  ⟨attempt?_of_mem hids, mem_of_attempt?⟩

theorem map_info_setOutcomeIn (id : UInt64) (outcome : Outcome) (attempts : List Attempt) :
    (setOutcomeIn id outcome attempts).map (·.info) = attempts.map (·.info) := by
  induction attempts with
  | nil => rfl
  | cons attempt attempts ih =>
    rw [setOutcomeIn]
    split
    · rfl
    · rw [List.map_cons, List.map_cons, ih]

theorem map_info_setOutcome (payment : Payment) (id : UInt64) (outcome : Outcome) :
    (payment.setOutcome id outcome).attempts.map (·.info) = payment.attempts.map (·.info) :=
  map_info_setOutcomeIn id outcome payment.attempts

theorem map_id_setOutcome (payment : Payment) (id : UInt64) (outcome : Outcome) :
    (payment.setOutcome id outcome).attempts.map (·.id) = payment.attempts.map (·.id) := by
  have h := congrArg (List.map AttemptInfo.id) (payment.map_info_setOutcome id outcome)
  rw [List.map_map, List.map_map] at h
  exact h

theorem setOutcomeIn_append {id : UInt64} {outcome : Outcome} {before after : List Attempt}
    {attempt : Attempt} (hbefore : ∀ other ∈ before, other.id ≠ id) (hid : attempt.id = id) :
    setOutcomeIn id outcome (before ++ attempt :: after) =
      before ++ { attempt with outcome } :: after := by
  induction before with
  | nil => rw [List.nil_append, setOutcomeIn, if_pos hid, List.nil_append]
  | cons first before ih =>
    obtain ⟨hfirst, hrest⟩ := List.forall_mem_cons.1 hbefore
    rw [List.cons_append, setOutcomeIn, if_neg hfirst, ih hrest, List.cons_append]

/-- The outcome goes to the attempt that is found by the id, also where others share it. -/
theorem exists_split_setOutcome {payment : Payment} {id : UInt64} {attempt : Attempt}
    (hfind : payment.attempt? id = some attempt) (outcome : Outcome) :
    ∃ before after, payment.attempts = before ++ attempt :: after ∧
      (payment.setOutcome id outcome).attempts = before ++ { attempt with outcome } :: after := by
  obtain ⟨_, before, after, hattempts, hbefore⟩ := List.find?_eq_some_iff_append.1 hfind
  refine ⟨before, after, hattempts, ?_⟩
  change setOutcomeIn id outcome payment.attempts = _
  rw [hattempts]
  exact setOutcomeIn_append (fun other hmem => by simpa using hbefore other hmem)
    (id_of_attempt? hfind)

theorem find?_setOutcomeIn (id other : UInt64) (outcome : Outcome) (attempts : List Attempt) :
    (setOutcomeIn id outcome attempts).find? (·.id = other) =
      if other = id then (attempts.find? (·.id = id)).map ({ · with outcome })
      else attempts.find? (·.id = other) := by
  induction attempts with
  | nil => simp [setOutcomeIn]
  | cons attempt attempts ih =>
    have hid : ({ attempt with outcome } : Attempt).id = attempt.id := rfl
    rw [setOutcomeIn]
    split
    · rename_i hattempt
      by_cases hother : other = id
      · simp [hother, hid, hattempt]
      · have hne : attempt.id ≠ other := fun h => hother (h.symm.trans hattempt)
        simp [hother, hid, hne]
    · rename_i hattempt
      by_cases hother : other = id
      · subst hother
        simpa [hattempt] using ih
      · simp only [List.find?_cons, ih, if_neg hother]

theorem attempt?_setOutcome (payment : Payment) (id other : UInt64) (outcome : Outcome) :
    (payment.setOutcome id outcome).attempt? other =
      if other = id then (payment.attempt? id).map ({ · with outcome })
      else payment.attempt? other :=
  find?_setOutcomeIn id other outcome payment.attempts

theorem distinctIds_append {payment : Payment} {attempt : Attempt} (hids : payment.DistinctIds)
    (hnew : payment.attempt? attempt.id = none) : (payment.append attempt).DistinctIds := by
  rw [attempt?_eq_none_iff] at hnew
  rw [DistinctIds, append, List.map_append, List.nodup_append]
  refine ⟨hids, by simp, ?_⟩
  intro id hid new hmem heq
  rw [List.map_singleton, List.mem_singleton] at hmem
  exact hnew (hmem ▸ heq ▸ hid)

theorem distinctIds_setOutcome {payment : Payment} (id : UInt64) (outcome : Outcome)
    (hids : payment.DistinctIds) : (payment.setOutcome id outcome).DistinctIds := by
  rw [DistinctIds, map_id_setOutcome]
  exact hids

theorem attempts_setOutcome {payment : Payment} (hids : payment.DistinctIds) (id : UInt64)
    (outcome : Outcome) :
    (payment.setOutcome id outcome).attempts = payment.attempts.map (·.recorded id outcome) := by
  rw [DistinctIds] at hids
  change setOutcomeIn id outcome payment.attempts = _
  generalize payment.attempts = attempts at hids ⊢
  induction attempts with
  | nil => rfl
  | cons attempt attempts ih =>
    obtain ⟨hnew, hrest⟩ := List.nodup_cons.1 hids
    rw [setOutcomeIn, List.map_cons]
    split
    · rename_i hattempt
      have hothers : attempts.map (·.recorded id outcome) = attempts.map fun other => other := by
        apply List.map_congr_left
        intro other hmem
        refine other.recorded_of_ne outcome fun hother => hnew ?_
        exact List.mem_map.2 ⟨other, hmem, hother.trans hattempt.symm⟩
      rw [hothers, List.map_id', Attempt.recorded, if_pos hattempt]
    · rename_i hattempt
      rw [ih hrest, attempt.recorded_of_ne outcome hattempt]

theorem mem_setOutcome {payment : Payment} {id : UInt64} {info : AttemptInfo} {old : Outcome}
    (hids : payment.DistinctIds) (hold : payment.attempt? id = some ⟨info, old⟩)
    (outcome : Outcome) (attempt : Attempt) :
    attempt ∈ (payment.setOutcome id outcome).attempts ↔
      attempt = ⟨info, outcome⟩ ∨ attempt ∈ payment.attempts ∧ attempt.id ≠ id := by
  rw [mem_iff_attempt? (distinctIds_setOutcome id outcome hids), attempt?_setOutcome,
    mem_iff_attempt? hids]
  by_cases hid : attempt.id = id
  · simp [hid, hold, eq_comm]
  · have hinfo : info.id = id := id_of_attempt? hold
    have hnew : attempt ≠ ⟨info, outcome⟩ := by
      rintro rfl
      exact hid hinfo
    simp [hid, hnew]

@[simp] theorem mem_append (payment : Payment) (new attempt : Attempt) :
    attempt ∈ (payment.append new).attempts ↔ attempt ∈ payment.attempts ∨ attempt = new := by
  simp [append]

theorem attempt?_append (payment : Payment) (attempt : Attempt) (id : UInt64) :
    (payment.append attempt).attempt? id =
      (payment.attempt? id).or (if attempt.id = id then some attempt else none) := by
  simp only [attempt?, append, List.find?_append, List.find?_singleton, decide_eq_true_eq]

theorem settledAttempt?_append (payment : Payment) (info : AttemptInfo) :
    (payment.append ⟨info, .pending⟩).settledAttempt? = payment.settledAttempt? := by
  have hid : (payment.append ⟨info, .pending⟩).settledId = payment.settledId := rfl
  rw [settledAttempt?, settledAttempt?, hid]
  cases payment.settledId with
  | none => rfl
  | some id =>
    rw [Option.bind_some, Option.bind_some, attempt?_append]
    cases payment.attempt? id with
    | some attempt => rfl
    | none =>
      -- The payment names an id that it lacks, and the new attempt may be the one with it.
      rw [Option.none_or]
      split <;> rfl

theorem status_append (payment : Payment) (info : AttemptInfo) :
    (payment.append ⟨info, .pending⟩).status = payment.status := by
  rw [status, status, settledAttempt?_append]
  rfl

end Payment

end Lightpay
