import Lightpay.Proofs.Lifecycle.Run

/-! Payments do not interfere with each other. Whatever is asked under a hash is answered from the
text that stands under it, and only deletion goes over all of them. A run may therefore leave out
what is addressed to other hashes: the answers and the text under this one stay the same. -/

namespace Lightpay

/-- The hash that an operation is addressed to. Lists and deletion go over all of them. -/
def Lifecycle.Op.hash? : Op → Option PaymentHash
  | .start info => some info.hash
  | .register hash _ | .failAttempt hash _ _ | .giveUp hash _ | .settle hash _ _ => some hash
  | .fetch hash | .status hash => some hash
  | .list | .listInFlight | .delete => none

namespace Lifecycle

variable {hash own : PaymentHash} {op : Op}

theorem hash?_of_transition {transition : Transition}
    (hop : op.transition? = some (own, transition)) : op.hash? = some own := by
  cases op with
  | start => cases hop; rfl
  | register => cases hop; rfl
  | failAttempt => cases hop; rfl
  | giveUp => cases hop; rfl
  | settle => cases hop; rfl
  | fetch => cases hop
  | status => cases hop
  | list => cases hop
  | listInFlight => cases hop
  | delete => cases hop

theorem addressed_cases (hop : op.hash? = some hash) :
    (∃ transition, op.transition? = some (hash, transition)) ∨
      (op = .fetch hash ∨ op = .status hash) ∧ op.transition? = none ∧ op ≠ .delete := by
  cases op with
  | start => cases hop; exact .inl ⟨_, rfl⟩
  | register => cases hop; exact .inl ⟨_, rfl⟩
  | failAttempt => cases hop; exact .inl ⟨_, rfl⟩
  | giveUp => cases hop; exact .inl ⟨_, rfl⟩
  | settle => cases hop; exact .inl ⟨_, rfl⟩
  | fetch => cases hop; exact .inr ⟨.inl rfl, rfl, nofun⟩
  | status => cases hop; exact .inr ⟨.inr rfl, rfl, nofun⟩
  | list => cases hop
  | listInFlight => cases hop
  | delete => cases hop

end Lifecycle

namespace Store

open Lifecycle

/-- What was asked under the hash in a run, with the answers. -/
def dialogue (store : Store) (hash : PaymentHash) (ops : List Op) :
    List (Op × Except Error Answer) :=
  (ops.zip (store.run ops).1).filter fun asked => asked.1.hash? = some hash

variable {store left right : Store} {hash : PaymentHash} {op : Op}

theorem dialogue_cons (store : Store) (hash : PaymentHash) (op : Op) (ops : List Op) :
    store.dialogue hash (op :: ops) =
      if op.hash? = some hash then (op, (store.step op).1) :: (store.step op).2.dialogue hash ops
      else (store.step op).2.dialogue hash ops := by
  simp only [dialogue, run, List.zip_cons_cons, List.filter_cons, decide_eq_true_eq]

theorem get?_congr (htext : left.payments.get? hash = right.payments.get? hash) :
    left.get? hash = right.get? hash := by
  rw [get?, get?, htext]

theorem update_congr (hget : left.get? hash = right.get? hash) (transition : Transition) :
    (∃ e, left.update hash transition = .error e ∧ right.update hash transition = .error e) ∨
      ∃ updated, left.update hash transition = .ok (updated, left.put hash updated) ∧
        right.update hash transition = .ok (updated, right.put hash updated) := by
  cases hleft : left.update hash transition with
  | error e =>
    rw [update_eq_error_iff, hget, ← update_eq_error_iff] at hleft
    exact .inl ⟨e, rfl, hleft⟩
  | ok done =>
    obtain ⟨updated, reached⟩ := done
    obtain ⟨current, hcurrent, hok, hhash, rfl⟩ := update_eq_ok_iff.1 hleft
    exact .inr ⟨updated, rfl,
      update_ok right hash transition current updated (hget ▸ hcurrent) hok hhash⟩

theorem read_congr (hop : op = .fetch hash ∨ op = .status hash)
    (hget : left.get? hash = right.get? hash) : (left.step op).1 = (right.step op).1 := by
  rcases hop with rfl | rfl
  · rw [step, step, apply, apply, fetch, fetch, hget]
    cases right.get? hash with
    | error e => rfl
    | ok found => cases found <;> rfl
  · rw [step, step, apply, apply, Store.status, Store.status, hget]
    cases right.get? hash with
    | error e => rfl
    | ok found => cases found <;> rfl

/-- Stores with the same text under a hash answer alike what is addressed to it, and have the same
text there afterwards. -/
theorem step_congr (hop : op.hash? = some hash)
    (htext : left.payments.get? hash = right.payments.get? hash) :
    (left.step op).1 = (right.step op).1 ∧
      (left.step op).2.payments.get? hash = (right.step op).2.payments.get? hash := by
  have hget := get?_congr htext
  rcases addressed_cases hop with ⟨transition, hwrite⟩ | ⟨hread, hnone, hdelete⟩
  · obtain ⟨answer, happly⟩ := exists_answer hwrite
    rcases update_congr hget transition with ⟨e, hleft, hright⟩ | ⟨updated, hleft, hright⟩
    · rw [step, step, happly, happly, hleft, hright]
      exact ⟨rfl, htext⟩
    · rw [step, step, happly, happly, hleft, hright]
      refine ⟨rfl, ?_⟩
      change (left.payments.insert hash _).get? hash = (right.payments.insert hash _).get? hash
      rw [Table.get?_insert, Table.get?_insert, if_pos rfl, if_pos rfl]
  · refine ⟨read_congr hread hget, ?_⟩
    rw [step_read left hnone hdelete, step_read right hnone hdelete, htext]

theorem text_step_other {other : PaymentHash} (store : Store) (hop : op.hash? = some other)
    (hother : other ≠ hash) :
    (store.step op).2.payments.get? hash = store.payments.get? hash := by
  rcases addressed_cases hop with ⟨transition, hwrite⟩ | ⟨_, hnone, hdelete⟩
  · obtain ⟨answer, happly⟩ := exists_answer hwrite
    cases hupdate : store.update other transition with
    | error e =>
      rw [step, happly, hupdate]
      rfl
    | ok done =>
      obtain ⟨updated, reached⟩ := done
      obtain ⟨_, _, _, _, rfl⟩ := update_eq_ok_iff.1 hupdate
      rw [step, happly, hupdate]
      change (store.payments.insert other _).get? hash = _
      rw [Table.get?_insert, if_neg hother]
  · rw [step_read store hnone hdelete]

theorem text_step_congr (hleft : left.Consistent) (hright : right.Consistent)
    (hop : op.hash? = none) (htext : left.payments.get? hash = right.payments.get? hash) :
    (left.step op).2.payments.get? hash = (right.step op).2.payments.get? hash := by
  by_cases hdelete : op = .delete
  · subst hdelete
    rw [step_delete hleft, step_delete hright, without, without, Table.get?_filter,
      Table.get?_filter, htext]
  · have hnone : op.transition? = none := by
      cases hwrite : op.transition? with
      | none => rfl
      | some write => cases hop.symm.trans (hash?_of_transition hwrite)
    rw [step_read left hnone hdelete, step_read right hnone hdelete, htext]

/-- The operations without those that are addressed to other hashes. -/
def concerning (hash : PaymentHash) (ops : List Op) : List Op :=
  ops.filter fun op => op.hash? = none ∨ op.hash? = some hash

/-- Two runs stay alike under a hash when one of them leaves out what others are asked for. -/
theorem dialogue_concerning (hleft : left.Consistent) (hright : right.Consistent)
    (htext : left.payments.get? hash = right.payments.get? hash) (ops : List Op) :
    left.dialogue hash ops = right.dialogue hash (concerning hash ops) ∧
      (left.ran ops).payments.get? hash =
        (right.ran (concerning hash ops)).payments.get? hash := by
  -- Both runs stay consistent, since a deletion has to read all payments, not just this one.
  induction ops generalizing left right with
  | nil => exact ⟨rfl, htext⟩
  | cons op ops ih =>
    cases hop : op.hash? with
    | none =>
      have hkept : concerning hash (op :: ops) = op :: concerning hash ops := by
        simp [concerning, hop]
      have hnext := ih (consistent_step hleft op) (consistent_step hright op)
        (text_step_congr hleft hright hop htext)
      rw [hkept, dialogue_cons, dialogue_cons, if_neg (by simp [hop]), if_neg (by simp [hop])]
      exact hnext
    | some other =>
      by_cases hother : other = hash
      · subst hother
        have hkept : concerning other (op :: ops) = op :: concerning other ops := by
          simp [concerning, hop]
        obtain ⟨hanswer, htextNext⟩ := step_congr hop htext
        obtain ⟨hdialogue, hfinal⟩ :=
          ih (consistent_step hleft op) (consistent_step hright op) htextNext
        rw [hkept, dialogue_cons, dialogue_cons, if_pos hop, if_pos hop, hanswer, hdialogue]
        exact ⟨rfl, hfinal⟩
      · -- Only the full run takes this step, and it leaves the text as it was.
        have hleftOut : concerning hash (op :: ops) = concerning hash ops := by
          simp [concerning, hop, hother]
        have hnext := ih (consistent_step hleft op) hright
          ((text_step_other left hop hother).trans htext)
        rw [hleftOut, dialogue_cons, if_neg (by simp [hop, hother])]
        exact hnext

/-- From an empty store, a run without what is addressed to other hashes gives the same answers to
what is addressed to this one, and leaves the same record. -/
theorem undisturbed (version : Option String) (ops : List Op) (hash : PaymentHash) :
    dialogue ⟨version, .empty⟩ hash (concerning hash ops) = dialogue ⟨version, .empty⟩ hash ops ∧
      (ran ⟨version, .empty⟩ (concerning hash ops)).payments.get? hash =
        (ran ⟨version, .empty⟩ ops).payments.get? hash ∧
      (ran ⟨version, .empty⟩ (concerning hash ops)).get? hash =
        (ran ⟨version, .empty⟩ ops).get? hash := by
  have hempty := consistent_blank version
  obtain ⟨hdialogue, htext⟩ := @dialogue_concerning _ _ hash hempty hempty rfl ops
  exact ⟨hdialogue.symm, htext.symm, get?_congr htext.symm⟩

end Store

end Lightpay
