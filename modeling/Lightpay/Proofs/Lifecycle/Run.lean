import Lightpay.Proofs.Lifecycle.Change
import Lightpay.Proofs.Store.Transaction

/-! Runs of operations, seen from one hash. A payment evolves by itself: neither
the other hashes nor the stored texts matter to it. -/

namespace Lightpay

/-- What is stored under a hash after an operation, by what was stored there before. -/
def Lifecycle.Op.after (hash : PaymentHash) (op : Op) (current : Option Payment) :
    Option Payment :=
  match op.transition? with
  | some (own, transition) =>
    if own = hash then
      match transition current with
      | .ok updated => some updated
      | .error _ => current
    else current
  | none => if op = .delete then current.filter (·.status = .inFlight) else current

namespace Lifecycle

theorem after_of_change {hash : PaymentHash} {op : Op} {current : Option Payment}
    {updated : Payment} (h : Change hash op current updated) :
    op.after hash current = some updated := by
  obtain ⟨transition, hop⟩ := transition_of_change h
  have hok := (transition_ok_iff hop current updated).2 h
  simp only [Op.after, hop, hok, ↓reduceIte]

theorem foldl_after_of_change {hash : PaymentHash} {op : Op} {current : Option Payment}
    {updated : Payment} (ops : List Op) (h : Change hash op current updated) :
    (op :: ops).foldl (fun current op => op.after hash current) current =
      ops.foldl (fun current op => op.after hash current) (some updated) := by
  rw [List.foldl_cons, after_of_change h]

theorem after_delete (hash : PaymentHash) (current : Option Payment) :
    Op.delete.after hash current = current.filter (·.status = .inFlight) := rfl

theorem after_eq_self {hash : PaymentHash} {op : Op} {current : Option Payment}
    (hchange : ∀ updated, ¬ Change hash op current updated) (hdelete : op ≠ .delete) :
    op.after hash current = current := by
  rw [Op.after]
  cases hop : op.transition? with
  | none => exact if_neg hdelete
  | some write =>
    obtain ⟨own, transition⟩ := write
    by_cases hown : own = hash
    · subst hown
      cases hresult : transition current with
      | ok updated =>
        exact absurd ((transition_ok_iff hop current updated).1 hresult) (hchange updated)
      | error e => simp [hresult]
    · simp [hown]

theorem after_cases (hash : PaymentHash) (op : Op) (current : Option Payment) :
    (∃ updated, Change hash op current updated ∧ op.after hash current = some updated) ∨
      (op = .delete ∧ op.after hash current = current.filter (·.status = .inFlight)) ∨
      op.after hash current = current := by
  by_cases hchange : ∃ updated, Change hash op current updated
  · obtain ⟨updated, h⟩ := hchange
    exact .inl ⟨updated, h, after_of_change h⟩
  · by_cases hdelete : op = .delete
    · exact .inr (.inl ⟨hdelete, hdelete ▸ after_delete hash current⟩)
    · exact .inr (.inr (after_eq_self (not_exists.1 hchange) hdelete))

end Lifecycle

namespace Store

open Lifecycle

/-- Every stored text is a payment, and it stands under its own hash. -/
def Consistent (store : Store) : Prop :=
  ∀ hash, ∃ current, store.get? hash = .ok current ∧
    ∀ payment, current = some payment → payment.info.hash = hash

/-- The operation would be carried out. -/
def Accepts (store : Store) (op : Op) : Prop :=
  ∃ answer reached, store.apply op = .ok (answer, reached)

/-- The store after operations, carried out or refused. -/
def ran (store : Store) (ops : List Op) : Store := (store.run ops).2

/-- Somewhere on the way through the operations, this one is carried out. -/
def Carries (store : Store) (ops : List Op) (op : Op) : Prop :=
  ∃ before later, ops = before ++ op :: later ∧ (store.ran before).Accepts op

/-- Somewhere on the way through the operations, deletion removes the payment. -/
def Removes (store : Store) (ops : List Op) (hash : PaymentHash) : Prop :=
  ∃ before later payment, ops = before ++ .delete :: later ∧
    (store.ran before).get? hash = .ok (some payment) ∧
    (store.ran (before ++ [.delete])).get? hash = .ok none

@[simp] theorem ran_nil (store : Store) : store.ran [] = store := rfl

@[simp] theorem ran_cons (store : Store) (op : Op) (ops : List Op) :
    store.ran (op :: ops) = (store.step op).2.ran ops := rfl

@[simp] theorem ran_append (store : Store) (left right : List Op) :
    store.ran (left ++ right) = (store.ran left).ran right := by
  induction left generalizing store with
  | nil => rfl
  | cons op left ih => exact ih (store.step op).2

theorem ran_concat (store : Store) (ops : List Op) (op : Op) :
    store.ran (ops ++ [op]) = ((store.ran ops).step op).2 := by
  rw [ran_append, ran_cons, ran_nil]

theorem readable_of_consistent {store : Store} (h : store.Consistent) : store.Readable := by
  intro hash
  obtain ⟨current, hget, _⟩ := h hash
  exact ⟨current, hget⟩

theorem consistent_blank (version : Option String) : Consistent ⟨version, .empty⟩ :=
  fun hash => ⟨none, get?_blank version hash, nofun⟩

theorem exists_answer {op : Op} {hash : PaymentHash} {transition : Transition}
    (hop : op.transition? = some (hash, transition)) :
    ∃ answer : Payment → Answer, ∀ store : Store, store.apply op =
      (store.update hash transition).map fun done => (answer done.1, done.2) := by
  cases op with
  | start info =>
    cases hop
    refine ⟨fun _ => .done, fun store => ?_⟩
    rw [apply, start]
    cases store.update info.hash (Lifecycle.start info) <;> rfl
  | register => cases hop; exact ⟨.payment, fun _ => rfl⟩
  | failAttempt => cases hop; exact ⟨.payment, fun _ => rfl⟩
  | giveUp => cases hop; exact ⟨.payment, fun _ => rfl⟩
  | settle => cases hop; exact ⟨.payment, fun _ => rfl⟩
  | fetch => cases hop
  | status => cases hop
  | list => cases hop
  | listInFlight => cases hop
  | delete => cases hop

theorem apply_write {op : Op} {hash : PaymentHash} {transition : Transition} (store : Store)
    (hop : op.transition? = some (hash, transition)) :
    ∃ answer : Payment → Answer, store.apply op =
      (store.update hash transition).map fun done => (answer done.1, done.2) := by
  obtain ⟨answer, happly⟩ := exists_answer hop
  exact ⟨answer, happly store⟩

theorem step_refused {store : Store} {op : Op} {hash : PaymentHash} {transition : Transition}
    {current : Option Payment} {e : Error} (hop : op.transition? = some (hash, transition))
    (hget : store.get? hash = .ok current) (herror : transition current = .error e) :
    store.step op = (.error e, store) := by
  obtain ⟨answer, happly⟩ := apply_write store hop
  rw [step, happly, update_error store hash transition current e hget herror]
  rfl

theorem apply_change {store : Store} {op : Op} {hash : PaymentHash} {current : Option Payment}
    {updated : Payment} (hcons : store.Consistent) (hget : store.get? hash = .ok current)
    (h : Change hash op current updated) :
    ∃ answer, store.apply op = .ok (answer, store.put hash updated) := by
  obtain ⟨transition, hop⟩ := transition_of_change h
  obtain ⟨answer, happly⟩ := apply_write store hop
  obtain ⟨known, hknown, hhash⟩ := hcons hash
  cases hget.symm.trans hknown
  have hok := (transition_ok_iff hop current updated).2 h
  rw [happly, update_ok store hash transition current updated hget hok
    (info_hash_of_change h hhash)]
  exact ⟨answer updated, rfl⟩

theorem step_error_iff {store : Store} {op : Op} {hash : PaymentHash} {transition : Transition}
    {current : Option Payment} (hop : op.transition? = some (hash, transition))
    (hget : store.get? hash = .ok current)
    (hhash : ∀ payment, current = some payment → payment.info.hash = hash) (e : Error) :
    (store.step op).1 = .error e ↔ transition current = .error e := by
  cases hresult : transition current with
  | error other =>
    rw [step_refused hop hget hresult, Except.error.injEq, Except.error.injEq]
  | ok updated =>
    have h := (transition_ok_iff hop current updated).1 hresult
    obtain ⟨answer, happly⟩ := apply_write store hop
    rw [step, happly, update_ok store hash transition current updated hget hresult
      (info_hash_of_change h hhash)]
    exact iff_of_false nofun nofun

theorem step_change {store : Store} {op : Op} {hash : PaymentHash} {current : Option Payment}
    {updated : Payment} (hcons : store.Consistent) (hget : store.get? hash = .ok current)
    (h : Change hash op current updated) : (store.step op).2 = store.put hash updated := by
  obtain ⟨answer, happly⟩ := apply_change hcons hget h
  rw [step, happly]

theorem apply_register {store registered : Store} {hash : PaymentHash} {info : AttemptInfo}
    {payment : Payment} (h : store.register hash info = .ok (payment, registered)) :
    store.apply (.register hash info) = .ok (.payment payment, registered) := by
  rw [apply, h]
  rfl

theorem step_register {store registered : Store} {hash : PaymentHash} {info : AttemptInfo}
    {payment : Payment} (h : store.register hash info = .ok (payment, registered)) :
    (store.step (.register hash info)).2 = registered := by
  rw [step, apply_register h]

theorem step_delete {store : Store} (hcons : store.Consistent) :
    (store.step .delete).2 = store.without (·.status ≠ .inFlight) := by
  obtain ⟨n, hremove⟩ := remove_ok store (·.status ≠ .inFlight) (readable_of_consistent hcons)
  rw [step, apply, deleteResolved, hremove]
  rfl

theorem step_read {op : Op} (store : Store) (hop : op.transition? = none) (hdelete : op ≠ .delete) :
    (store.step op).2 = store := by
  cases op with
  | fetch hash => rw [step, apply]; cases store.fetch hash <;> rfl
  | status hash => rw [step, apply]; cases store.status hash <;> rfl
  | list => rw [step, apply]; cases store.all <;> rfl
  | listInFlight => rw [step, apply]; cases store.allInFlight <;> rfl
  | delete => exact absurd rfl hdelete
  | start => cases hop
  | register => cases hop
  | failAttempt => cases hop
  | giveUp => cases hop
  | settle => cases hop

theorem step_eq_committed (store : Store) (op : Op) :
    (store.step op).2 = store.committed (store.apply op) := by
  rw [step]
  cases store.apply op <;> rfl

theorem version_step (store : Store) (op : Op) : (store.step op).2.version = store.version := by
  cases hop : op.transition? with
  | none =>
    by_cases hdelete : op = .delete
    · subst hdelete
      rw [step, apply, deleteResolved, remove]
      cases store.all <;> rfl
    · rw [step_read store hop hdelete]
  | some write =>
    obtain ⟨own, transition⟩ := write
    obtain ⟨answer, happly⟩ := apply_write store hop
    rw [step, happly]
    cases hupdate : store.update own transition with
    | error e => rfl
    | ok done =>
      obtain ⟨updated, reached⟩ := done
      obtain ⟨_, _, _, _, rfl⟩ := update_eq_ok_iff.1 hupdate
      rfl

theorem accepts_iff {store : Store} {op : Op} {hash : PaymentHash} {transition : Transition}
    {current : Option Payment} (hcons : store.Consistent)
    (hop : op.transition? = some (hash, transition)) (hget : store.get? hash = .ok current) :
    store.Accepts op ↔ ∃ updated, Change hash op current updated := by
  constructor
  · rintro ⟨answer, reached, happly⟩
    cases htransition : transition current with
    | ok updated => exact ⟨updated, (transition_ok_iff hop current updated).1 htransition⟩
    | error e =>
      have hstep := step_refused hop hget htransition
      rw [step, happly] at hstep
      cases hstep
  · rintro ⟨updated, h⟩
    obtain ⟨answer, happly⟩ := apply_change hcons hget h
    exact ⟨answer, _, happly⟩

/-- An operation acts on each hash as `Op.after` says. -/
theorem get?_step {store : Store} {hash : PaymentHash} {current : Option Payment}
    (hcons : store.Consistent) (op : Op) (hget : store.get? hash = .ok current) :
    (store.step op).2.get? hash = .ok (op.after hash current) := by
  cases hop : op.transition? with
  | none =>
    by_cases hdelete : op = .delete
    · subst hdelete
      rw [step_delete hcons, get?_without store _ hash current hget, after_delete]
      simp
    · rw [step_read store hop hdelete, hget, Op.after, hop]
      simp only [if_neg hdelete]
  | some write =>
    obtain ⟨own, transition⟩ := write
    obtain ⟨known, hknown, _⟩ := hcons own
    cases hresult : transition known with
    | error e =>
      -- Refused under its own hash, it is refused as a whole.
      rw [step_refused hop hknown hresult, hget, Op.after, hop]
      by_cases hown : own = hash
      · subst hown
        cases hget.symm.trans hknown
        simp [hresult]
      · simp [hown]
    | ok updated =>
      have hchange := (transition_ok_iff hop known updated).1 hresult
      rw [step_change hcons hknown hchange, get?_put]
      by_cases hown : own = hash
      · subst hown
        cases hget.symm.trans hknown
        rw [if_pos rfl, after_of_change hchange]
      · rw [if_neg hown, hget, Op.after, hop]
        simp only [if_neg hown]

theorem consistent_step {store : Store} (hcons : store.Consistent) (op : Op) :
    (store.step op).2.Consistent := by
  intro hash
  obtain ⟨current, hget, hhash⟩ := hcons hash
  refine ⟨op.after hash current, get?_step hcons op hget, ?_⟩
  intro payment hpayment
  obtain ⟨updated, hchange, hafter⟩ | ⟨_, hafter⟩ | hafter := after_cases hash op current
  · rw [hafter] at hpayment
    cases hpayment
    exact info_hash_of_change hchange hhash
  · rw [hafter] at hpayment
    exact hhash payment (Option.filter_eq_some_iff.1 hpayment).1
  · rw [hafter] at hpayment
    exact hhash payment hpayment

theorem version_ran (store : Store) (ops : List Op) : (store.ran ops).version = store.version := by
  induction ops generalizing store with
  | nil => rfl
  | cons op ops ih => rw [ran_cons, ih, version_step]

theorem consistent_ran {store : Store} (hcons : store.Consistent) (ops : List Op) :
    (store.ran ops).Consistent := by
  induction ops generalizing store with
  | nil => exact hcons
  | cons op ops ih => exact ih (consistent_step hcons op)

theorem get?_ran {store : Store} {hash : PaymentHash} {current : Option Payment}
    (hcons : store.Consistent) (ops : List Op) (hget : store.get? hash = .ok current) :
    (store.ran ops).get? hash =
      .ok (ops.foldl (fun current op => op.after hash current) current) := by
  induction ops generalizing store current with
  | nil => exact hget
  | cons op ops ih => exact ih (consistent_step hcons op) (get?_step hcons op hget)

theorem carries_of_change {store : Store} {before : List Op} {op : Op} (later : List Op)
    {hash : PaymentHash} {current : Option Payment} {updated : Payment}
    (hcons : store.Consistent) (hget : (store.ran before).get? hash = .ok current)
    (h : Change hash op current updated) : store.Carries (before ++ op :: later) op := by
  obtain ⟨answer, happly⟩ := apply_change (consistent_ran hcons before) hget h
  exact ⟨before, later, rfl, answer, _, happly⟩

theorem removes_of_delete {store : Store} {before later : List Op} {hash : PaymentHash}
    {payment : Payment} (hcons : store.Consistent)
    (hget : (store.ran before).get? hash = .ok (some payment))
    (hresolved : payment.status ≠ .inFlight) :
    store.Removes (before ++ .delete :: later) hash := by
  refine ⟨before, later, payment, rfl, hget, ?_⟩
  rw [ran_concat, get?_step (consistent_ran hcons before) .delete hget, after_delete]
  simp [Option.filter, hresolved]

theorem removes_append_right {store : Store} (left : List Op) {right : List Op}
    {hash : PaymentHash} (h : (store.ran left).Removes right hash) :
    store.Removes (left ++ right) hash := by
  obtain ⟨before, later, payment, rfl, hget, hnone⟩ := h
  refine ⟨left ++ before, later, payment, (List.append_assoc ..).symm, ?_, ?_⟩
  · rw [ran_append, hget]
  · rw [List.append_assoc, ran_append, hnone]

theorem carries_append_right {store : Store} (left : List Op) {right : List Op} {op : Op}
    (h : (store.ran left).Carries right op) : store.Carries (left ++ right) op := by
  obtain ⟨before, later, rfl, haccepts⟩ := h
  refine ⟨left ++ before, later, (List.append_assoc ..).symm, ?_⟩
  rw [ran_append]
  exact haccepts

theorem carries_append_left {store : Store} {left : List Op} (right : List Op) {op : Op}
    (h : store.Carries left op) : store.Carries (left ++ right) op := by
  obtain ⟨before, later, rfl, haccepts⟩ := h
  exact ⟨before, later ++ right, by simp, haccepts⟩

theorem delete_mem_of_removes {store : Store} {ops : List Op} {hash : PaymentHash}
    (h : store.Removes ops hash) : .delete ∈ ops := by
  obtain ⟨before, later, _, rfl, _⟩ := h
  exact List.mem_append_right _ List.mem_cons_self

theorem mem_of_carries {store : Store} {ops : List Op} {op : Op} (h : store.Carries ops op) :
    op ∈ ops := by
  obtain ⟨before, later, rfl, _⟩ := h
  exact List.mem_append_right _ List.mem_cons_self

/-- What every operation of the list keeps, at the point where it comes, the list keeps. -/
theorem ran_keeps {store : Store} {hash : PaymentHash} {current : Option Payment}
    (P : Option Payment → Prop) (hcons : store.Consistent) (ops : List Op)
    (hget : store.get? hash = .ok current) (hP : P current)
    (hstep : ∀ before op later reached, ops = before ++ op :: later →
      (store.ran before).get? hash = .ok reached → P reached → P (op.after hash reached)) :
    ∃ final, (store.ran ops).get? hash = .ok final ∧ P final := by
  induction ops generalizing store current with
  | nil => exact ⟨current, hget, hP⟩
  | cons op ops ih =>
    refine ih (consistent_step hcons op) (get?_step hcons op hget)
      (hstep [] op ops current rfl hget hP) ?_
    intro before next later reached hops hreached
    exact hstep (op :: before) next later reached (by rw [hops, List.cons_append]) hreached

end Store

end Lightpay
