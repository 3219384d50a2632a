import Lightpay.Proofs.Sender.HandOff

/-! Whether an id still means the attempt that was handed to the network under it.
Outcomes name no more than the hash and the id, and a payment that starts afresh counts
its attempts from zero again. -/

namespace Lightpay

open Lifecycle

namespace Store

variable {store : Store} {hash : PaymentHash} {info : AttemptInfo}

/-- Whatever is stored under the hash with the id of the attempt is the attempt. -/
def Faithful (store : Store) (hash : PaymentHash) (info : AttemptInfo) : Prop :=
  ∀ payment, store.get? hash = .ok (some payment) →
    ∀ attempt ∈ payment.attempts, attempt.id = info.id → attempt.info = info

theorem faithful_of_stored (hsound : store.Sound) {payment : Payment} {outcome : Outcome}
    (hget : store.get? hash = .ok (some payment)) (hmem : ⟨info, outcome⟩ ∈ payment.attempts) :
    store.Faithful hash info := by
  intro other hother attempt hattempt hid
  cases hget.symm.trans hother
  have hids := (hsound.payments hash payment hget).distinct_ids
  have hstored : payment.attempt? info.id = some ⟨info, outcome⟩ :=
    Payment.attempt?_of_mem hids hmem
  rw [← hid, Payment.attempt?_of_mem hids hattempt] at hstored
  cases hstored
  rfl

/-- An id keeps its meaning as long as no other attempt is registered with it. -/
theorem faithful_ran (hsound : store.Sound) (hfaithful : store.Faithful hash info)
    (ops : List Op)
    (hregister : ∀ other : AttemptInfo, other.id = info.id →
      store.Carries ops (.register hash other) → other = info) :
    (store.ran ops).Faithful hash info := by
  intro payment hpayment
  apply ran_keeps_stored
    (fun payment => ∀ attempt ∈ payment.attempts, attempt.id = info.id → attempt.info = info)
    hsound ops hfaithful _ hpayment
  intro op reached updated _ hold h hcarries attempt hmem hid
  rcases attempt_origin h hmem with ⟨earlier, old, rfl, hearlier, hinfo⟩ | rfl
  · rw [← hinfo]
    apply hold earlier rfl old hearlier
    rw [← hid, Attempt.id, Attempt.id, hinfo]
  · exact hregister attempt.info hid hcarries

theorem registered_of_accepts (hsound : store.Sound)
    (haccepts : store.Accepts (.register hash info)) :
    ∃ payment, (store.step (.register hash info)).2.get? hash = .ok (some payment) ∧
      ⟨info, .pending⟩ ∈ payment.attempts := by
  obtain ⟨current, updated, _, h, hget⟩ := change_of_accepts hsound rfl haccepts
  refine ⟨updated, hget, ?_⟩
  cases h with
  | @register _ payment => exact (Payment.mem_append payment _ _).2 (.inr rfl)

theorem faithful_iff (hsound : store.Sound) (hfaithful : store.Faithful hash info)
    (ops : List Op) :
    (∀ before later, ops = before ++ later → (store.ran before).Faithful hash info) ↔
      ∀ other : AttemptInfo, other.id = info.id →
        store.Carries ops (.register hash other) → other = info := by
  constructor
  · rintro h other hid ⟨before, later, rfl, haccepts⟩
    obtain ⟨payment, hget, hmem⟩ := registered_of_accepts (sound_ran hsound before) haccepts
    have hreached := h (before ++ [.register hash other]) later (by simp)
    rw [ran_concat] at hreached
    exact hreached payment hget _ hmem hid
  · rintro h before later rfl
    exact faithful_ran hsound hfaithful before fun other hid hcarries =>
      h other hid (carries_append_left _ hcarries)

theorem stored_of_change {op : Op} {reached : Option Payment} {updated : Payment}
    (h : Change hash op reached updated)
    (hop : ∀ creation : CreationInfo, creation.hash = hash → op ≠ .start creation)
    (hsound : ∀ payment, reached = some payment → payment.Sound hash)
    (hold : ∀ payment, reached = some payment → ∃ outcome, ⟨info, outcome⟩ ∈ payment.attempts) :
    ∃ outcome, ⟨info, outcome⟩ ∈ updated.attempts := by
  have hstart : ∀ creation, op ≠ .start creation := by
    rintro creation rfl
    cases h with
    | startFirst hhash => exact hop creation hhash rfl
    | startAgain hhash => exact hop creation hhash rfl
  cases reached with
  | none =>
    cases h with
    | startFirst => exact absurd rfl (hstart _)
  | some payment =>
    obtain ⟨old, hmem⟩ := hold payment rfl
    have hids := (hsound payment rfl).distinct_ids
    rcases attempt_kept h hstart hids hmem with hkept | ⟨next, _, _, hkept⟩
    · exact ⟨old, hkept⟩
    · exact ⟨next, hkept⟩

/-- As long as its hash is not started again, no attempt is registered under the id of one that
was stored. -/
theorem restarted_of_carries (hsound : store.Sound) {payment : Payment} {outcome : Outcome}
    (hget : store.get? hash = .ok (some payment)) (hmem : ⟨info, outcome⟩ ∈ payment.attempts)
    {ops : List Op} {other : AttemptInfo} (hid : other.id = info.id)
    (hcarries : store.Carries ops (.register hash other)) :
    ∃ creation : CreationInfo, creation.hash = hash ∧ store.Carries ops (.start creation) := by
  -- Otherwise the attempt is still stored when the other comes, which is then a duplicate.
  by_contra hstart
  obtain ⟨before, later, rfl, haccepts⟩ := hcarries
  obtain ⟨current, updated, hcurrent, h, _⟩ :=
    change_of_accepts (sound_ran hsound before) rfl haccepts
  cases h with
  | @register _ kept _ hnew =>
    have hstored : ∃ outcome, ⟨info, outcome⟩ ∈ kept.attempts := by
      apply ran_keeps_stored (fun payment => ∃ outcome, ⟨info, outcome⟩ ∈ payment.attempts)
        hsound before _ _ hcurrent
      · intro first hfirst
        cases hget.symm.trans hfirst
        exact ⟨outcome, hmem⟩
      · intro op reached updated hreached hold h hcarried
        have hop : ∀ creation, creation.hash = hash → op ≠ .start creation := by
          rintro creation hhash rfl
          exact hstart ⟨creation, hhash, carries_append_left _ hcarried⟩
        exact stored_of_change h hop hreached hold
    obtain ⟨old, hold⟩ := hstored
    rw [Payment.attempt?_eq_none_iff, hid] at hnew
    exact hnew (List.mem_map_of_mem hold)

/-- While the id is faithful, an accepted outcome is recorded on the attempt itself. -/
theorem recorded_of_faithful (hsound : store.Sound) (hfaithful : store.Faithful hash info)
    {op : Op} {outcome : Outcome} (hop : op.outcome? = some (hash, info.id, outcome))
    (haccepts : store.Accepts op) :
    ∃ payment updated, store.get? hash = .ok (some payment) ∧
      (store.step op).2.get? hash = .ok (some updated) ∧
      updated.attempt? info.id = some ⟨info, outcome⟩ ∧
      ∀ other ≠ info.id, updated.attempt? other = payment.attempt? other := by
  have htransition : ∃ transition, op.transition? = some (hash, transition) := by
    cases op <;> cases hop <;> exact ⟨_, rfl⟩
  obtain ⟨transition, htransition⟩ := htransition
  obtain ⟨current, updated, hget, h, hupdated⟩ := change_of_accepts hsound htransition haccepts
  obtain ⟨payment, stored, rfl, hpending, hrecorded, hothers⟩ := attempt?_of_outcome? hop h
  have hinfo : stored = info :=
    hfaithful payment hget _ (Payment.mem_of_attempt? hpending) (Payment.id_of_attempt? hpending)
  subst hinfo
  exact ⟨payment, updated, hget, hupdated, hrecorded, hothers⟩

end Store

namespace World

variable {world : World} {move : Move} {hash : PaymentHash} {info : AttemptInfo}

theorem stored_of_registered (hreachable : world.Reachable)
    (hregistered : world.registered? move = some (hash, info)) :
    ∃ payment, (world.step move).store.get? hash = .ok (some payment) ∧
      ⟨info, .pending⟩ ∈ payment.attempts := by
  rw [store_of_registered hregistered]
  exact Store.registered_of_accepts (sound_of_reachable hreachable)
    (performed_of_registered hregistered).2

/-- Since the registration of an attempt that was handed to the network, its id means another
attempt exactly after one was registered with the id, and that takes a new start of the hash. While
the id means the attempt, outcomes reported for the id are recorded on it. -/
theorem dispatched_id (version : Option String) (moves : List Move) (name : String)
    (hash : PaymentHash) (info : AttemptInfo)
    (hdispatched : ((blank version).run moves).dispatched? (.handOff name) = some (hash, info)) :
    ∃ before move waiting, moves = before ++ move :: waiting ∧
      (blank version).Waits before move waiting name hash info ∧ ∀ later,
      let registered := (blank version).run (before ++ [move])
      let since := waiting ++ .handOff name :: later
      let reached := (blank version).run (moves ++ .handOff name :: later)
      ((∀ earlier rest, registered.history since = earlier ++ rest →
          (registered.store.ran earlier).Faithful hash info) ↔
        ∀ other : AttemptInfo, other.id = info.id →
          registered.store.Carries (registered.history since) (.register hash other) →
            other = info) ∧
      (¬ registered.Starts since hash → reached.store.Faithful hash info) ∧
      (reached.store.Faithful hash info →
        ∀ (op : Op) (outcome : Outcome), op.outcome? = some (hash, info.id, outcome) →
          reached.store.Accepts op →
          ∃ payment updated, reached.store.get? hash = .ok (some payment) ∧
            (reached.store.step op).2.get? hash = .ok (some updated) ∧
            updated.attempt? info.id = some ⟨info, outcome⟩ ∧
            ∀ other ≠ info.id, updated.attempt? other = payment.attempt? other) := by
  obtain ⟨before, move, waiting, rfl, hwaits⟩ := exists_waits version moves hdispatched
  refine ⟨before, move, waiting, rfl, hwaits, fun later => ?_⟩
  intro registered since reached
  have hreachable : registered.Reachable := ⟨version, _, rfl⟩
  have hsound := sound_of_reachable hreachable
  obtain ⟨payment, hget, hmem⟩ : ∃ payment, registered.store.get? hash = .ok (some payment) ∧
      ⟨info, .pending⟩ ∈ payment.attempts := by
    have hstored := stored_of_registered ⟨version, before, rfl⟩ hwaits.registered
    rwa [← run_concat] at hstored
  have hfaithful := Store.faithful_of_stored hsound hget hmem
  have hreached : reached.store = registered.store.ran (registered.history since) := by
    rw [← store_run, ← run_append]
    simp [reached, since]
  rw [hreached]
  refine ⟨Store.faithful_iff hsound hfaithful _, ?_, ?_⟩
  · intro hstart
    apply Store.faithful_ran hsound hfaithful
    intro other hid hcarries
    exact absurd (Store.restarted_of_carries hsound hget hmem hid hcarries) hstart
  · intro hfaithful op outcome hop haccepts
    exact Store.recorded_of_faithful (Store.sound_ran hsound _) hfaithful hop haccepts

end World

namespace Sample

def firstMoves : List Move := [.start "first" creation, firstRegister]

theorem run_firstMoves : (World.blank none).run firstMoves = launching := by
  rw [firstMoves, World.run_cons, World.run_cons, World.run_nil]
  rfl

theorem run_lost : (World.blank none).run
    (firstMoves ++ [.handOff "first", .control (.giveUp hash .timeout)]) = lost := by
  rw [World.run_append, run_firstMoves, World.run_cons, World.run_cons, World.run_nil]
  rfl

theorem firstMoves_split {before waiting : List Move} {move : Move}
    (h : firstMoves = before ++ move :: waiting)
    (hown : ∃ now route sessionKey, move = .register "first" now route sessionKey) :
    before = [.start "first" creation] ∧ move = firstRegister ∧ waiting = [] := by
  obtain ⟨_, _, _, rfl⟩ := hown
  match before with
  | [] => cases h
  | [_] =>
    cases h
    exact ⟨rfl, rfl, rfl⟩
  | _ :: _ :: before => simp [firstMoves] at h

theorem get?_relaunching : relaunching.store.get? hash =
    .ok (some ((Payment.fresh creation).append ⟨other, .pending⟩)) :=
  World.get?_of_change again_reachable (World.performed_of_registered registered?_again).1
    get?_again change_other

theorem get?_overtakenRelaunching : overtakenRelaunching.store.get? hash =
    .ok (some ((Payment.fresh creation).append ⟨other, .pending⟩)) :=
  World.get?_of_change overtakenSent_reachable
    (World.performed_of_registered registered?_overtakenSent).1 get?_overtakenSent change_other

theorem unfaithful_of_other {store : Store}
    (hget : store.get? hash = .ok (some ((Payment.fresh creation).append ⟨other, .pending⟩))) :
    ¬ store.Faithful hash attempt := by
  intro hfaithful
  have hinfo := hfaithful _ hget ⟨other, .pending⟩ (List.mem_singleton_self _) rfl
  have hkey := congrArg (·.sessionKey.scalar) hinfo
  cases hkey

theorem change_late : Change hash (.failAttempt hash attempt.id failure)
    (some ((Payment.fresh creation).append ⟨other, .pending⟩))
    ⟨creation, [⟨other, .failed failure⟩], none, none⟩ :=
  @Change.failAttempt hash 0 failure ((Payment.fresh creation).append ⟨other, .pending⟩) other rfl

theorem accepts_late : lost.store.Accepts (.failAttempt hash attempt.id failure) :=
  (Store.accepts_iff lost_consistent rfl get?_lost).2
    ⟨_, @Change.failAttempt hash 0 failure givenUp attempt rfl⟩

end Sample

namespace World

theorem dispatched_id_lost : Sample.lost.store.Faithful Sample.hash Sample.attempt ∧
    ∃ payment updated, Sample.lost.store.get? Sample.hash = .ok (some payment) ∧
      (Sample.lost.store.step (.failAttempt Sample.hash Sample.attempt.id Sample.failure)).2.get?
        Sample.hash = .ok (some updated) ∧
      updated.attempt? Sample.attempt.id = some ⟨Sample.attempt, .failed Sample.failure⟩ ∧
      ∀ other ≠ Sample.attempt.id, updated.attempt? other = payment.attempt? other := by
  have hdispatched : ((blank none).run Sample.firstMoves).dispatched? (.handOff "first") =
      some (Sample.hash, Sample.attempt) := by
    rw [Sample.run_firstMoves]
    exact Sample.dispatched?_launching
  obtain ⟨before, move, waiting, hsplit, hwaits, hlater⟩ := dispatched_id none Sample.firstMoves
    "first" Sample.hash Sample.attempt hdispatched
  obtain ⟨rfl, rfl, rfl⟩ := Sample.firstMoves_split hsplit hwaits.own
  obtain ⟨_, hfaithful, hrecorded⟩ := hlater [.control (.giveUp Sample.hash .timeout)]
  rw [Sample.run_lost] at hfaithful hrecorded
  have hlost : Sample.lost.store.Faithful Sample.hash Sample.attempt := by
    apply hfaithful
    rintro ⟨creation, _, hcarries⟩
    cases List.mem_singleton.1 (Store.mem_of_carries hcarries)
  exact ⟨hlost, hrecorded hlost _ _ rfl Sample.accepts_late⟩

/-- After a retry the id of an attempt on the network means another attempt, which then gets the
outcome of the first. The retry may even come before the hand-off, while the attempt waits. -/
theorem id_reused :
    (Sample.launching.Reachable ∧
      Sample.launching.dispatched? (.handOff "first") = some (Sample.hash, Sample.attempt) ∧
      Sample.relaunching = (Sample.launching.step (.handOff "first")).run
        [.control (.giveUp Sample.hash .timeout), .start "second" Sample.creation,
          Sample.secondRegister] ∧
      ¬ Sample.relaunching.store.Faithful Sample.hash Sample.attempt ∧
      (Sample.relaunching.store.step
          (.failAttempt Sample.hash Sample.attempt.id Sample.failure)).2.get? Sample.hash =
        .ok (some ⟨Sample.creation, [⟨Sample.other, .failed Sample.failure⟩], none, none⟩)) ∧
    Sample.overtaken.Reachable ∧
      Sample.overtaken.dispatched? (.handOff "first") = some (Sample.hash, Sample.attempt) ∧
      Sample.overtakenSent = Sample.overtaken.step (.handOff "first") ∧
      ¬ Sample.overtakenSent.Starts [Sample.secondRegister] Sample.hash ∧
      ¬ (Sample.overtakenSent.step Sample.secondRegister).store.Faithful Sample.hash
        Sample.attempt := by
  have hreachable : Sample.relaunching.Reachable := reachable_step Sample.again_reachable _
  have hcons := (sound_of_reachable hreachable).consistent
  refine ⟨⟨Sample.launching_reachable, Sample.dispatched?_launching, ?_,
    Sample.unfaithful_of_other Sample.get?_relaunching, ?_⟩,
    Sample.overtaken_reachable, Sample.dispatched?_overtaken, rfl,
    not_starts_of_registered Sample.registered?_overtakenSent,
    Sample.unfaithful_of_other Sample.get?_overtakenRelaunching⟩
  · rw [run_cons, run_cons, run_cons, run_nil]
    rfl
  · rw [Store.get?_step hcons _ Sample.get?_relaunching, after_of_change Sample.change_late]

end World

end Lightpay
