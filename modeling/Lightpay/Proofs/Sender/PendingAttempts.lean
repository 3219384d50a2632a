import Lightpay.Proofs.Sender.World

/-! What becomes of an attempt without an outcome. Every move keeps it, except the two
that drop its payment as a whole: a new start after the payment was given up, and a
deletion while the payment is not in flight. -/

namespace Lightpay

namespace Lifecycle

/-- The operation drops the payment under the hash, whatever its attempts are. -/
def Op.Drops (hash : PaymentHash) (payment : Payment) (op : Op) : Prop :=
  (∃ info, op = .start info ∧ info.hash = hash ∧ payment.status = .failed) ∨
    op = .delete ∧ payment.status ≠ .inFlight

/-- Neither starts nor deletes. -/
def Op.Keeps (op : Op) : Prop := (∀ info, op ≠ .start info) ∧ op ≠ .delete

end Lifecycle

open Lifecycle

/-- The attempt is stored with an outcome that is still pending or was reported by one of
the operations. -/
def Payment.Keeps (hash : PaymentHash) (info : AttemptInfo) (ops : List Op)
    (payment : Payment) : Prop :=
  ∃ outcome, ⟨info, outcome⟩ ∈ payment.attempts ∧
    (outcome = .pending ∨ ∃ op ∈ ops, op.outcome? = some (hash, info.id, outcome))

namespace Store

variable {store : Store} {hash : PaymentHash} {payment : Payment} {info : AttemptInfo}

theorem keeps_ran (hsound : store.Sound) (ops : List Op) (hkeeps : ∀ op ∈ ops, op.Keeps)
    (hget : store.get? hash = .ok (some payment)) (hmem : ⟨info, .pending⟩ ∈ payment.attempts) :
    ∃ kept, (store.ran ops).get? hash = .ok (some kept) ∧ kept.Keeps hash info ops := by
  apply ran_keeps_payment (Payment.Keeps hash info ops) hsound ops hget
  · exact ⟨.pending, hmem, .inl rfl⟩
  · intro hremoves
    exact (hkeeps .delete (delete_mem_of_removes hremoves)).2 rfl
  · intro op reached updated hreached ⟨outcome, hstored, hreported⟩ h hcarries
    have hop := mem_of_carries hcarries
    rcases attempt_kept h (hkeeps op hop).1 hreached.distinct_ids hstored with
      hkept | ⟨next, hnext, _, hkept⟩
    · exact ⟨outcome, hkept, hreported⟩
    · exact ⟨next, hkept, .inr ⟨op, hop, hnext⟩⟩

/-- A single operation keeps a pending attempt unless it drops the payment. -/
theorem keeps_step (hsound : store.Sound) (op : Op)
    (hget : store.get? hash = .ok (some payment)) (hmem : ⟨info, .pending⟩ ∈ payment.attempts)
    (hdrops : ¬ op.Drops hash payment) :
    ∃ kept, (store.ran [op]).get? hash = .ok (some kept) ∧ kept.Keeps hash info [op] := by
  by_cases hkeeps : op.Keeps
  · exact keeps_ran hsound [op] (by simpa using hkeeps) hget hmem
  · refine ⟨payment, ?_, .pending, hmem, .inl rfl⟩
    rw [ran_cons, ran_nil, get?_step hsound.consistent op hget]
    by_cases hdelete : op = .delete
    · subst hdelete
      have hinFlight : payment.status = .inFlight := by
        by_contra hresolved
        exact hdrops (.inr ⟨rfl, hresolved⟩)
      simp [after_delete, Option.filter, hinFlight]
    · have hstart : ∃ info, op = .start info := by
        by_contra hstart
        exact hkeeps ⟨not_exists.1 hstart, hdelete⟩
      obtain ⟨creation, rfl⟩ := hstart
      rw [after_eq_self _ hdelete]
      intro updated h
      cases h with
      | startAgain hhash hfailed => exact hdrops (.inl ⟨creation, rfl, hhash, hfailed⟩)

theorem dropped_step (hsound : store.Sound) {op : Op}
    (hget : store.get? hash = .ok (some payment)) (hdrops : op.Drops hash payment) :
    ∃ left, (store.ran [op]).get? hash = .ok left ∧
      ∀ kept, left = some kept → kept.attempts = [] := by
  refine ⟨op.after hash (some payment), get?_step hsound.consistent op hget, ?_⟩
  intro kept hkept
  rcases hdrops with ⟨creation, rfl, hhash, hfailed⟩ | ⟨rfl, hresolved⟩
  · rw [after_of_change (.startAgain hhash hfailed)] at hkept
    cases hkept
    rfl
  · simp [after_delete, Option.filter, hresolved] at hkept

end Store

namespace World

theorem undo_of_mem_conclude {world : World} {name : String} {now : UInt64}
    {verdict : Except Error Unit} {op : Op}
    (hop : op ∈ world.performed (.conclude name now verdict)) :
    ∃ action : FailUndispatched, op = action.op now := by
  rw [performed] at hop
  split at hop
  · cases verdict with
    | ok => cases hop
    | error e =>
      obtain ⟨action, _, rfl⟩ := List.mem_map.1 hop
      exact ⟨action, rfl⟩
  · cases hop

theorem performed_cases (world : World) (move : Move) :
    (∀ op ∈ world.performed move, op.Keeps) ∨ ∃ op, world.performed move = [op] := by
  cases move with
  | control op => exact .inr ⟨op, rfl⟩
  | start name info => exact .inr ⟨.start info, rfl⟩
  | resume => exact .inl (by simp [performed])
  | handOff => exact .inl (by simp [performed])
  | register name =>
    rw [performed]
    cases world.idle? name <;> simp
  | failAttempt name =>
    rw [performed]
    cases world.idle? name <;> simp
  | settle name =>
    rw [performed]
    cases world.idle? name <;> simp
  | giveUp name =>
    rw [performed]
    cases world.idle? name <;> simp
  | conclude name now verdict =>
    left
    intro op hop
    obtain ⟨action, rfl⟩ := undo_of_mem_conclude hop
    exact ⟨fun info h => (by cases h), fun h => (by cases h)⟩

/-- A pending attempt survives every move, with its outcome still pending or as the move
reports it, unless the move drops the payment, and then no attempt survives. -/
theorem pending_kept {world : World} (hreachable : world.Reachable) (move : Move)
    {hash : PaymentHash} {payment : Payment} {attempt : Attempt}
    (hget : world.store.get? hash = .ok (some payment)) (hmem : attempt ∈ payment.attempts)
    (hpending : attempt.outcome = .pending) :
    ((∀ op ∈ world.performed move, ¬ op.Drops hash payment) →
      ∃ kept, (world.step move).store.get? hash = .ok (some kept) ∧
        kept.Keeps hash attempt.info (world.performed move)) ∧
    ((∃ op ∈ world.performed move, op.Drops hash payment) →
      ∃ left, (world.step move).store.get? hash = .ok left ∧
        ∀ kept, left = some kept → kept.attempts = []) := by
  have hsound := sound_of_reachable hreachable
  obtain ⟨info, outcome⟩ := attempt
  cases hpending
  rw [store_step]
  constructor
  · intro hdrops
    -- A move performs a single operation, or only such as neither start nor delete.
    rcases world.performed_cases move with hkeeps | ⟨op, hop⟩
    · exact Store.keeps_ran hsound _ hkeeps hget hmem
    · rw [hop] at hdrops ⊢
      exact Store.keeps_step hsound op hget hmem (hdrops op List.mem_cons_self)
  · rintro ⟨op, hop, hdrops⟩
    rcases world.performed_cases move with hkeeps | ⟨only, honly⟩
    · rcases hdrops with ⟨creation, rfl, _⟩ | ⟨rfl, _⟩
      · exact absurd rfl ((hkeeps _ hop).1 creation)
      · exact absurd rfl (hkeeps _ hop).2
    · rw [honly, List.mem_singleton] at hop
      subst hop
      rw [honly]
      exact Store.dropped_step hsound hget hdrops

end World

theorem Sample.pending_mem : ⟨attempt, .pending⟩ ∈ givenUp.attempts := List.mem_singleton_self _

namespace World

theorem pending_kept_failed :
    (∃ kept, (Sample.lost.step (.control (.failAttempt Sample.hash 0 Sample.failure))).store.get?
        Sample.hash = .ok (some kept) ∧
      kept.Keeps Sample.hash Sample.attempt [.failAttempt Sample.hash 0 Sample.failure]) ∧
    ∃ left, (Sample.lost.step (.start "second" Sample.creation)).store.get? Sample.hash =
      .ok left ∧ ∀ kept, left = some kept → kept.attempts = [] := by
  constructor
  · apply (pending_kept Sample.lost_reachable (.control (.failAttempt Sample.hash 0 Sample.failure))
      Sample.get?_lost Sample.pending_mem rfl).1
    intro op hop hdrops
    cases List.mem_singleton.1 hop
    rcases hdrops with ⟨_, hstart, _⟩ | ⟨hdelete, _⟩
    · cases hstart
    · cases hdelete
  · apply (pending_kept Sample.lost_reachable (.start "second" Sample.creation)
      Sample.get?_lost Sample.pending_mem rfl).2
    exact ⟨_, List.mem_singleton_self _, .inl ⟨_, rfl, rfl, rfl⟩⟩

/-- An attempt on the network is dropped by a retry, and also by a deletion. -/
theorem pending_dropped :
    Sample.lost.Reachable ∧
      Sample.lost.store.get? Sample.hash = .ok (some Sample.givenUp) ∧
      ⟨Sample.attempt, .pending⟩ ∈ Sample.givenUp.attempts ∧
      (Sample.lost.step (.start "second" Sample.creation)).store.get? Sample.hash =
        .ok (some (.fresh Sample.creation)) ∧
      (Sample.lost.step (.control .delete)).store.get? Sample.hash = .ok none := by
  refine ⟨Sample.lost_reachable, Sample.get?_lost, Sample.pending_mem, ?_, ?_⟩
  · exact get?_of_change Sample.lost_reachable rfl Sample.get?_lost Sample.change_retry
  · have hstatus : Sample.givenUp.status = .failed := rfl
    rw [store_step, performed, Store.ran_cons, Store.ran_nil,
      Store.get?_step Sample.lost_consistent _ Sample.get?_lost, after_delete]
    simp [Option.filter, hstatus]

end World

end Lightpay
