import Lightpay.Proofs.Lifecycle.Automaton
import Lightpay.Proofs.Sender.AttemptIds

/-! An attempt is registered before it is handed to the network, and what others do while it waits
is all that can make a difference. No id is registered twice for one payment: neither the senders'
counters nor the rest of the store matter to this, it is the check for duplicates that keeps the ids
apart. -/

namespace Lightpay

open Lifecycle

namespace Store

variable {store reached : Store} {hash : PaymentHash} {op : Op} {payment updated : Payment}

theorem get?_delete_cases (store : Store) (hash : PaymentHash) :
    (store.step .delete).2.get? hash = store.get? hash ∨
      (store.step .delete).2.get? hash = .ok none := by
  rw [step, apply, deleteResolved, remove]
  cases store.all with
  | error e => exact .inl rfl
  | ok payments => exact get?_without_cases store (·.status ≠ .inFlight) hash

theorem get?_step_cases (store : Store) (op : Op) (hash : PaymentHash) :
    (store.step op).2.get? hash = store.get? hash ∨ (store.step op).2.get? hash = .ok none ∨
      ∃ current updated, store.get? hash = .ok current ∧ Change hash op current updated ∧
        store.Accepts op ∧ (store.step op).2.get? hash = .ok (some updated) := by
  cases hop : op.transition? with
  | none =>
    by_cases hdelete : op = .delete
    · subst hdelete
      exact (get?_delete_cases store hash).imp_right .inl
    · rw [step_read store hop hdelete]
      exact .inl rfl
  | some write =>
    obtain ⟨own, transition⟩ := write
    obtain ⟨answer, happly⟩ := apply_write store hop
    cases hupdate : store.update own transition with
    | error e =>
      rw [step, happly, hupdate]
      exact .inl rfl
    | ok done =>
      obtain ⟨updated, reached⟩ := done
      rw [hupdate] at happly
      have hreached : (store.step op).2 = reached := by
        rw [step, happly]
        rfl
      obtain ⟨current, hget, hok, _, rfl⟩ := update_eq_ok_iff.1 hupdate
      rw [hreached, get?_put]
      by_cases hown : own = hash
      · subst hown
        rw [if_pos rfl]
        exact .inr (.inr ⟨current, updated, hget, (transition_ok_iff hop current updated).1 hok,
          ⟨_, _, happly⟩, rfl⟩)
      · exact .inl (if_neg hown)

theorem register_of_accepts {info : AttemptInfo} (h : store.Accepts (.register hash info)) :
    ∃ payment, store.get? hash = .ok (some payment) ∧ payment.status = .inFlight ∧
      payment.attempt? info.id = none ∧
      (store.step (.register hash info)).2.get? hash =
        .ok (some (payment.append ⟨info, .pending⟩)) := by
  obtain ⟨answer, reached, happly⟩ := h
  rw [step, happly]
  rw [apply, map_eq_ok_iff] at happly
  obtain ⟨⟨updated, _⟩, hupdate, hdone⟩ := happly
  cases hdone
  obtain ⟨current, hget, hok, _, rfl⟩ := update_eq_ok_iff.1 hupdate
  cases (register_ok_iff hash info current updated).1 hok with
  | @register _ payment hinFlight hnew =>
    refine ⟨payment, hget, hinFlight, hnew, ?_⟩
    rw [get?_put, if_pos rfl]

/-- A payment under the hash has an attempt with the id. -/
def Uses (store : Store) (hash : PaymentHash) (id : UInt64) : Prop :=
  ∀ payment, store.get? hash = .ok (some payment) → id ∈ payment.attempts.map (·.id)

variable {id : UInt64}

theorem uses_of_registered {info : AttemptInfo} (h : store.Accepts (.register hash info)) :
    (store.step (.register hash info)).2.Uses hash info.id := by
  obtain ⟨before, _, _, _, hget⟩ := register_of_accepts h
  intro payment hpayment
  cases hget.symm.trans hpayment
  exact List.mem_map_of_mem ((Payment.mem_append before _ _).2 (.inr rfl))

theorem not_uses_of_accepts {info : AttemptInfo} (h : store.Accepts (.register hash info)) :
    ¬ store.Uses hash info.id := by
  obtain ⟨payment, hget, _, hnew, _⟩ := register_of_accepts h
  intro huses
  exact Payment.attempt?_eq_none_iff.1 hnew (huses payment hget)

theorem mem_ids_of_change (h : Change hash op (some payment) updated)
    (hstart : ∀ creation, op ≠ .start creation) (hmem : id ∈ payment.attempts.map (·.id)) :
    id ∈ updated.attempts.map (·.id) := by
  cases h with
  | startAgain => exact absurd rfl (hstart _)
  | register =>
    rw [Payment.append, List.map_append]
    exact List.mem_append_left _ hmem
  | failAttempt => rwa [Payment.map_id_setOutcome]
  | giveUp => exact hmem
  | @settle settled settlement =>
    exact (payment.map_id_setOutcome settled (.settled settlement)).symm ▸ hmem

theorem uses_step (huses : store.Uses hash id)
    (hstart : ∀ creation : CreationInfo, creation.hash = hash → op = .start creation →
      ¬ store.Accepts op) : (store.step op).2.Uses hash id := by
  intro updated hupdated
  rcases get?_step_cases store op hash with
    hsame | hnone | ⟨current, changed, hget, h, haccepts, hchanged⟩
  · exact huses updated (hsame.symm.trans hupdated)
  · cases hnone.symm.trans hupdated
  · cases hchanged.symm.trans hupdated
    have hnoStart : ∀ creation, op ≠ .start creation := by
      rintro creation rfl
      refine hstart creation ?_ rfl haccepts
      cases h with
      | startFirst hhash => exact hhash
      | startAgain hhash => exact hhash
    cases current with
    | none =>
      cases h with
      | startFirst => exact absurd rfl (hnoStart _)
    | some payment => exact mem_ids_of_change h hnoStart (huses payment hget)

theorem uses_ran (ops : List Op) (huses : store.Uses hash id)
    (hstart : ∀ creation : CreationInfo, creation.hash = hash →
      ¬ store.Carries ops (.start creation)) : (store.ran ops).Uses hash id := by
  induction ops generalizing store with
  | nil => exact huses
  | cons op ops ih =>
    apply ih
    · apply uses_step huses
      rintro creation hhash rfl haccepts
      exact hstart creation hhash ⟨[], ops, rfl, haccepts⟩
    · intro creation hhash hcarries
      exact hstart creation hhash (carries_append_right [op] hcarries)

/-- The attempt is stored as pending, for a payment in flight. -/
def Pending (store : Store) (hash : PaymentHash) (info : AttemptInfo) : Prop :=
  ∃ payment, store.get? hash = .ok (some payment) ∧ ⟨info, .pending⟩ ∈ payment.attempts ∧
    payment.status = .inFlight

end Store

namespace Lifecycle

variable {hash : PaymentHash} {info : AttemptInfo} {op : Op} {payment updated : Payment}

/-- The operation gives the attempt its outcome, or it ends the payment. -/
def Op.Ends (hash : PaymentHash) (id : UInt64) (op : Op) : Prop :=
  (∃ failure, op = .failAttempt hash id failure) ∨
    (∃ other settlement, op = .settle hash other settlement) ∨ ∃ reason, op = .giveUp hash reason

theorem pending_of_change (h : Change hash op (some payment) updated) (hsound : payment.Sound hash)
    (hends : ¬ op.Ends hash info.id) (hmem : ⟨info, .pending⟩ ∈ payment.attempts)
    (hinFlight : payment.status = .inFlight) :
    ⟨info, .pending⟩ ∈ updated.attempts ∧ updated.status = .inFlight := by
  cases h with
  | startAgain _ hfailed => cases hinFlight.symm.trans hfailed
  | register _ hnew =>
    exact ⟨(Payment.mem_append ..).2 (.inl hmem), (status_of_register hsound hnew).trans hinFlight⟩
  | @failAttempt id failure _ _ hpending =>
    refine ⟨?_, (status_of_failAttempt hsound hpending failure).trans hinFlight⟩
    rcases kept_setOutcome hsound.distinct_ids hpending (.failed failure) hmem with hkept | ⟨hid, _⟩
    · exact hkept
    · exact absurd (.inl ⟨failure, hid ▸ rfl⟩) hends
  | giveUp => exact absurd (.inr (.inr ⟨_, rfl⟩)) hends
  | settle => exact absurd (.inr (.inl ⟨_, _, rfl⟩)) hends

end Lifecycle

namespace Store

variable {store : Store} {hash : PaymentHash} {info : AttemptInfo}

theorem pending_of_accepts (h : store.Accepts (.register hash info)) :
    (store.step (.register hash info)).2.Pending hash info := by
  obtain ⟨payment, _, hinFlight, _, hget⟩ := register_of_accepts h
  exact ⟨_, hget, (Payment.mem_append ..).2 (.inr rfl),
    (Payment.status_append payment info).trans hinFlight⟩

theorem pending_ran (hsound : store.Sound) (h : store.Pending hash info) (ops : List Op)
    (hends : ∀ op, op.Ends hash info.id → ¬ store.Carries ops op) :
    (store.ran ops).Pending hash info := by
  obtain ⟨payment, hget, hmem, hinFlight⟩ := h
  have hstep : ∀ before op later reached, ops = before ++ op :: later →
      (store.ran before).get? hash = .ok reached →
      (∃ kept, reached = some kept ∧ ⟨info, .pending⟩ ∈ kept.attempts ∧ kept.status = .inFlight) →
      ∃ kept, op.after hash reached = some kept ∧ ⟨info, .pending⟩ ∈ kept.attempts ∧
        kept.status = .inFlight := by
    rintro before op later _ rfl hreached ⟨kept, rfl, hmem, hinFlight⟩
    obtain ⟨updated, h, hafter⟩ | ⟨rfl, hafter⟩ | hafter := after_cases hash op (some kept)
    · have hkept := (sound_ran hsound before).payments hash kept hreached
      have hcarries := carries_of_change later hsound.consistent hreached h
      exact ⟨updated, hafter, pending_of_change h hkept (fun hop => hends op hop hcarries)
        hmem hinFlight⟩
    · -- Deletion leaves a payment in flight alone.
      refine ⟨kept, ?_, hmem, hinFlight⟩
      simp [hafter, Option.filter, hinFlight]
    · exact ⟨kept, hafter, hmem, hinFlight⟩
  obtain ⟨_, hfinal, kept, rfl, hkept⟩ := ran_keeps
    (fun current => ∃ kept, current = some kept ∧ ⟨info, .pending⟩ ∈ kept.attempts ∧
      kept.status = .inFlight) hsound.consistent ops hget ⟨payment, rfl, hmem, hinFlight⟩ hstep
  exact ⟨kept, hfinal, hkept⟩

theorem stored_ran (hsound : store.Sound) (h : store.Pending hash info) (ops : List Op)
    (hstart : ∀ creation : CreationInfo, creation.hash = hash →
      ¬ store.Carries ops (.start creation))
    (hremoves : ¬ store.Removes ops hash) :
    ∃ payment, (store.ran ops).get? hash = .ok (some payment) ∧
      ∃ outcome, ⟨info, outcome⟩ ∈ payment.attempts := by
  obtain ⟨payment, hget, hmem, _⟩ := h
  apply ran_keeps_payment (fun payment => ∃ outcome, ⟨info, outcome⟩ ∈ payment.attempts)
    hsound ops hget ⟨.pending, hmem⟩ hremoves
  intro op payment updated hpayment hold h hcarries
  refine stored_of_change h ?_ (fun _ hsome => ?_) (fun _ hsome => ?_)
  · rintro creation hhash rfl
    exact hstart creation hhash hcarries
  · cases hsome
    exact hpayment
  · cases hsome
    exact hold

end Store

namespace World

variable {world : World} {before before' waiting waiting' between later : List Move}
  {move move' : Move} {name again : String} {hash : PaymentHash} {info other : AttemptInfo}

theorem starts_of_registered (hfirst : world.registered? move = some (hash, info))
    (hsecond : ((world.step move).run between).registered? move' = some (hash, other))
    (hid : other.id = info.id) : (world.step move).Starts between hash := by
  -- Otherwise the id is still in use when it is registered again, and that is refused.
  by_contra hstart
  have hregistered := Store.uses_of_registered (performed_of_registered hfirst).2
  rw [← store_of_registered hfirst] at hregistered
  have hreached := Store.uses_ran ((world.step move).history between) hregistered
    fun creation hhash hcarries => hstart ⟨creation, hhash, hcarries⟩
  rw [← store_run] at hreached
  exact Store.not_uses_of_accepts (performed_of_registered hsecond).2 (hid ▸ hreached)

/-- Two attempts with one id that are handed over for one hash were registered one after the other,
with a new start in between. -/
theorem starts_of_waits (hfirst : world.Waits before move waiting name hash info)
    (hsecond : world.Waits before' move' waiting' again hash other) (hid : other.id = info.id)
    (h : (before ++ move :: waiting) ++ .handOff name :: later = before' ++ move' :: waiting') :
    ∃ between,
      before' = before ++ move :: between ∧ (world.run (before ++ [move])).Starts between hash ∨
      before = before' ++ move' :: between ∧
        (world.run (before' ++ [move'])).Starts between hash := by
  obtain ⟨between, rfl | rfl⟩ := waits_apart hfirst hsecond h
  · have hagain := hsecond.registered
    rw [List.append_cons, run_append, run_concat] at hagain
    refine ⟨between, .inl ⟨rfl, ?_⟩⟩
    rw [run_concat]
    exact starts_of_registered hfirst.registered hagain hid
  · have hagain := hfirst.registered
    rw [List.append_cons, run_append, run_concat] at hagain
    refine ⟨between, .inr ⟨rfl, ?_⟩⟩
    rw [run_concat]
    exact starts_of_registered hsecond.registered hagain hid.symm

theorem run_control (world : World) (ops : List Op) :
    world.run (ops.map .control) = { world with store := world.store.ran ops } := by
  induction ops generalizing world with
  | nil => rfl
  | cons op ops ih => exact ih _

theorem step_handOff {sender : Sender}
    (h : world.workers name = some ⟨sender, .registered info⟩) :
    world.step (.handOff name) =
      ⟨world.store, world.set name (some ⟨sender, .handedOff info⟩)⟩ := by
  rw [step, h]

theorem step_conclude {sender : Sender} (h : world.workers name = some ⟨sender, .handedOff info⟩)
    (now : UInt64) (verdict : Except Error Unit) :
    world.step (.conclude name now verdict) =
      ⟨(sender.conclude world.store now verdict).2,
        world.set name (some ⟨(sender.conclude world.store now verdict).1, .idle⟩)⟩ := by
  rw [step, h]

/-- The launch of a sender is its moves, with what the network does between the last two. -/
theorem run_launch {sender : Sender} {now : UInt64} {route : Route} {sessionKey : SecretKey}
    {payment : Payment} {reached : Store} (hidle : world.idle? name = some sender)
    (h : world.store.register sender.hash ⟨sender.nextId, sessionKey, route, now⟩ =
      .ok (payment, reached)) (ended : UInt64) (network : AttemptInfo → Script) :
    let info : AttemptInfo := ⟨sender.nextId, sessionKey, route, now⟩
    let launched := sender.launch world.store now ended network route sessionKey
    launched.handedOff = some info ∧ launched.answers = (reached.run (network info).ops).1 ∧
      world.run (.register name now route sessionKey :: .handOff name ::
        ((network info).ops.map .control ++ [.conclude name ended (network info).verdict])) =
      ⟨launched.store, world.set name (some ⟨launched.sender, .idle⟩)⟩ := by
  intro info launched
  have hlaunched : launched = sender.launch world.store now ended network route sessionKey := rfl
  rw [Sender.launch, Sender.register, h] at hlaunched
  rw [hlaunched]
  refine ⟨rfl, rfl, ?_⟩
  rw [run_cons, step_register hidle h, run_cons, step_handOff (set_self ..), set_set, run_append,
    run_control, run_cons, run_nil, step_conclude (set_self ..), set_set]
  rfl

/-- Whatever is handed to the network was registered by its sender, and was then stored as pending
for a payment in flight. It is so still at the hand-off, unless others ended the attempt or the
payment while it waited, and it is stored at least with the same data, unless they dropped the
payment. An id is registered to be handed over again only after the hash was started again. What is
refused at its registration is not handed over, and where no one comes between, the launch of a
sender is the moves of the world. -/
theorem dispatched_once (version : Option String) :
    (∀ moves name hash info,
      ((blank version).run moves).dispatched? (.handOff name) = some (hash, info) →
      ∃ before move waiting, moves = before ++ move :: waiting ∧
        (blank version).Waits before move waiting name hash info ∧
        let registered := (blank version).run (before ++ [move])
        let left := ((blank version).run moves).store
        registered.store.Pending hash info ∧
        ((∀ op : Op, op.Ends hash info.id →
            ¬ registered.store.Carries (registered.history waiting) op) →
          left.Pending hash info) ∧
        (¬ registered.Starts waiting hash →
          ¬ registered.store.Removes (registered.history waiting) hash →
          ∃ payment, left.get? hash = .ok (some payment) ∧
            ∃ outcome, ⟨info, outcome⟩ ∈ payment.attempts) ∧
        ∀ later again other before' move' waiting',
          moves ++ .handOff name :: later = before' ++ move' :: waiting' →
          (blank version).Waits before' move' waiting' again hash other → other.id = info.id →
          ∃ between,
            before' = before ++ move :: between ∧
              ((blank version).run (before ++ [move])).Starts between hash ∨
            before = before' ++ move' :: between ∧
              ((blank version).run (before' ++ [move'])).Starts between hash) ∧
    ∀ (world : World) name sender, world.idle? name = some sender →
      ∀ now ended network route sessionKey,
      let info : AttemptInfo := ⟨sender.nextId, sessionKey, route, now⟩
      let register : Move := .register name now route sessionKey
      let launched := sender.launch world.store now ended network route sessionKey
      (∀ e, world.store.register sender.hash info = .error e →
        launched.handedOff = none ∧ world.step register = world ∧
          world.dispatched? (.handOff name) = none) ∧
      ∀ payment reached, world.store.register sender.hash info = .ok (payment, reached) →
        (launched.handedOff = some info ∧ launched.answers = (reached.run (network info).ops).1 ∧
          world.run (register :: .handOff name ::
            ((network info).ops.map .control ++ [.conclude name ended (network info).verdict])) =
          ⟨launched.store, world.set name (some ⟨launched.sender, .idle⟩)⟩) ∧
        (world.step register).dispatched? (.handOff name) = some (sender.hash, info) := by
  refine ⟨fun moves name hash info hdispatched => ?_, ?_⟩
  · obtain ⟨before, move, waiting, rfl, hwaits⟩ := exists_waits version moves hdispatched
    refine ⟨before, move, waiting, rfl, hwaits, ?_⟩
    intro registered left
    have hsound : registered.store.Sound := sound_of_reachable ⟨version, _, rfl⟩
    have hregistered : registered.store.Pending hash info := by
      have hstored := Store.pending_of_accepts (performed_of_registered hwaits.registered).2
      rwa [← store_of_registered hwaits.registered, ← run_concat] at hstored
    -- Between the registration and the hand-off stands what the moves of the others perform.
    have hleft : left = registered.store.ran (registered.history waiting) := by
      rw [← store_run, ← run_append, ← List.append_cons]
    rw [hleft]
    refine ⟨hregistered, Store.pending_ran hsound hregistered _, fun hstart hremoves => ?_, ?_⟩
    · exact Store.stored_ran hsound hregistered _
        (fun creation hhash hcarries => hstart ⟨creation, hhash, hcarries⟩) hremoves
    · intro later again other before' move' waiting' hmoves hsecond hid
      exact starts_of_waits hwaits hsecond hid hmoves
  · intro world name sender hidle now ended network route sessionKey info register launched
    refine ⟨fun e herror => ⟨?_, ?_, ?_⟩, fun payment reached hregister => ⟨?_, ?_⟩⟩
    · simp only [launched, Sender.launch, Sender.register, info, herror]
    · simp only [register, step, hidle, Sender.register, info, herror]
    · rw [dispatched?, workers_of_idle? hidle]
      rfl
    · exact run_launch hidle hregister ended network
    · rw [step_register hidle hregister, dispatched?_set, if_pos rfl]
      rfl

end World

namespace Sample

def meanwhile : List Move :=
  [.handOff "first", .control (.giveUp hash .timeout), .start "second" creation]

theorem run_meanwhile : (World.blank none).run (firstMoves ++ meanwhile) = again := by
  have hlast : firstMoves ++ meanwhile =
      (firstMoves ++ [.handOff "first", .control (.giveUp hash .timeout)]) ++
        [.start "second" creation] := rfl
  rw [hlast, World.run_concat, run_lost]
  rfl

theorem waits_second :
    (World.blank none).Waits (firstMoves ++ meanwhile) secondRegister [] "second" hash other where
  own := ⟨_, _, _, rfl⟩
  registered := by
    rw [run_meanwhile]
    exact registered?_again
  unsent := by
    intro passed rest hpassed
    rw [(List.append_eq_nil_iff.1 hpassed.symm).1, World.run_concat, run_meanwhile]
    exact World.dispatched?_of_registered registered?_again

end Sample

namespace World

theorem dispatched_once_resent :
    Sample.launching.store.Pending Sample.hash Sample.attempt ∧
      Sample.launching.Starts Sample.meanwhile Sample.hash ∧
      (Sample.begun.step Sample.firstRegister).dispatched? (.handOff "first") =
        some (Sample.hash, Sample.attempt) := by
  obtain ⟨hsent, hlaunch⟩ := dispatched_once none
  have hdispatched : ((blank none).run Sample.firstMoves).dispatched? (.handOff "first") =
      some (Sample.hash, Sample.attempt) := by
    rw [Sample.run_firstMoves]
    exact Sample.dispatched?_launching
  obtain ⟨before, move, waiting, hsplit, hwaits, _, hpending, _, honce⟩ :=
    hsent Sample.firstMoves "first" Sample.hash Sample.attempt hdispatched
  obtain ⟨rfl, rfl, rfl⟩ := Sample.firstMoves_split hsplit hwaits.own
  refine ⟨?_, ?_, ?_⟩
  · have hleft := hpending fun op _ hcarries => by cases Store.mem_of_carries hcarries
    rwa [Sample.run_firstMoves] at hleft
  · obtain ⟨between, ⟨hbetween, hstarts⟩ | ⟨hbefore, _⟩⟩ :=
      honce [.control (.giveUp Sample.hash .timeout), .start "second" Sample.creation,
        Sample.secondRegister] "second" Sample.other (Sample.firstMoves ++ Sample.meanwhile)
        Sample.secondRegister [] rfl Sample.waits_second rfl
    · cases hbetween
      rwa [← Sample.run_firstMoves]
    · have hlength := congrArg List.length hbefore
      simp [Sample.firstMoves, Sample.meanwhile] at hlength
  · exact (hlaunch Sample.begun "first" ⟨Sample.hash, 0, .empty⟩ Sample.idle?_begun 1700000001
      1700000002 (fun _ => ⟨[], .ok ()⟩) Sample.route Sample.attempt.sessionKey).2
      Sample.pending _ Sample.register_begun |>.2

/-- A retry that comes while an attempt waits takes it out of the store before it is handed over,
and the id is then handed over again without another start. -/
theorem dispatched_overtaken :
    Sample.overtaken.Reachable ∧
      Sample.overtaken.dispatched? (.handOff "first") = some (Sample.hash, Sample.attempt) ∧
      ¬ Sample.overtaken.store.Pending Sample.hash Sample.attempt ∧
      Sample.overtakenSent = Sample.overtaken.step (.handOff "first") ∧
      ¬ Sample.overtakenSent.Starts [Sample.secondRegister] Sample.hash ∧
      (Sample.overtakenSent.step Sample.secondRegister).dispatched? (.handOff "second") =
        some (Sample.hash, Sample.other) ∧
      Sample.other.id = Sample.attempt.id := by
  refine ⟨Sample.overtaken_reachable, Sample.dispatched?_overtaken, ?_, rfl,
    not_starts_of_registered Sample.registered?_overtakenSent,
    dispatched?_of_registered Sample.registered?_overtakenSent, rfl⟩
  rintro ⟨payment, hget, hmem, _⟩
  cases Sample.get?_overtaken.symm.trans hget
  cases hmem

end World

end Lightpay
