import Lightpay.Proofs.Lifecycle.Soundness
import Lightpay.World

/-! Moves of the world as operations on its store. All that matters to the store is which operations
the moves perform. -/

namespace Lightpay.World

@[simp] theorem run_nil (world : World) : world.run [] = world := rfl

@[simp] theorem run_cons (world : World) (move : Move) (moves : List Move) :
    world.run (move :: moves) = (world.step move).run moves := rfl

theorem run_append (world : World) (before after : List Move) :
    world.run (before ++ after) = (world.run before).run after := List.foldl_append

theorem run_concat (world : World) (moves : List Move) (move : Move) :
    world.run (moves ++ [move]) = (world.run moves).step move := run_append world moves [move]

theorem step_committed {op : Lifecycle.Op} {hash : PaymentHash} {transition : Transition}
    (store : Store) (hop : op.transition? = some (hash, transition)) :
    (store.step op).2 = store.committed (store.update hash transition) := by
  obtain ⟨answer, happly⟩ := Store.apply_write store hop
  rw [Store.step, happly]
  cases store.update hash transition <;> rfl

theorem undo_run (now : UInt64) (action : FailUndispatched) (store : Store) :
    (action.run now store).2 = (store.step (action.op now)).2 := by
  rw [step_committed store rfl, FailUndispatched.run, Store.failAttempt]
  cases store.update action.hash (Lifecycle.failAttempt action.id ⟨.internalError, now, none⟩) with
  | ok done => rfl
  | error e => cases e <;> rfl

theorem undo_runAll (now : UInt64) (actions : List FailUndispatched) (store : Store) :
    (UndoStack.runAll (FailUndispatched.run now) actions store).2 =
      store.ran (actions.map (·.op now)) := by
  induction actions generalizing store with
  | nil => rfl
  | cons action actions ih =>
    rw [UndoStack.runAll, List.map_cons, Store.ran_cons, ← undo_run]
    exact ih _

theorem conclude_store (sender : Sender) (store : Store) (now : UInt64)
    (verdict : Except Error Unit) :
    (sender.conclude store now verdict).2 = store.ran (sender.undone now verdict) := by
  cases verdict with
  | ok => rfl
  | error e => exact undo_runAll now sender.undo.actions store

theorem register_eq_ok_iff {sender next : Sender} {store reached : Store} {now : UInt64}
    {route : Route} {sessionKey : SecretKey} {info : AttemptInfo} :
    sender.register store now route sessionKey = .ok (info, next, reached) ↔
      info = ⟨sender.nextId, sessionKey, route, now⟩ ∧
        next = { sender with
          nextId := sender.nextId + 1, undo := sender.undo.push ⟨sender.hash, sender.nextId⟩ } ∧
        ∃ payment, store.register sender.hash info = .ok (payment, reached) := by
  rw [Sender.register]
  constructor
  · intro h
    split at h
    · cases h
    · rename_i payment _ hregister
      cases h
      exact ⟨rfl, rfl, payment, hregister⟩
  · rintro ⟨rfl, rfl, payment, h⟩
    rw [h]

theorem store_step (world : World) (move : Move) :
    (world.step move).store = world.store.ran (world.performed move) := by
  cases move with
  | control op => rfl
  | start name info =>
    rw [performed, Store.ran_cons, Store.ran_nil, step_committed world.store rfl, step,
      Sender.start, Store.start]
    cases world.store.update info.hash (Lifecycle.start info) <;> rfl
  | resume name hash =>
    rw [step]
    cases Sender.resume world.store hash <;> rfl
  | register name now route sessionKey =>
    rw [step, performed]
    cases world.idle? name with
    | none => rfl
    | some sender =>
      let info : AttemptInfo := ⟨sender.nextId, sessionKey, route, now⟩
      dsimp only
      rw [Store.ran_cons, Store.ran_nil, step_committed world.store rfl, Sender.register,
        Store.register]
      cases world.store.update sender.hash (Lifecycle.register info) <;> rfl
  | handOff name =>
    rw [step, performed]
    split <;> rfl
  | conclude name now verdict =>
    rw [step, performed]
    split
    · exact conclude_store ..
    · rfl
  | failAttempt name id failure =>
    rw [step, performed]
    cases world.idle? name with
    | none => rfl
    | some sender => exact (step_committed world.store rfl).symm
  | settle name now id preimage =>
    rw [step, performed]
    cases world.idle? name with
    | none => rfl
    | some sender => exact (step_committed world.store rfl).symm
  | giveUp name reason =>
    rw [step, performed]
    cases world.idle? name with
    | none => rfl
    | some sender => exact (step_committed world.store rfl).symm

theorem store_run (world : World) (moves : List Move) :
    (world.run moves).store = world.store.ran (world.history moves) := by
  induction moves generalizing world with
  | nil => rfl
  | cons move moves ih =>
    rw [run_cons, history, Store.ran_append, ← store_step]
    exact ih (world.step move)

theorem reachable_step {world : World} (h : world.Reachable) (move : Move) :
    (world.step move).Reachable := by
  obtain ⟨version, moves, rfl⟩ := h
  exact ⟨version, moves ++ [move], by rw [run, run, List.foldl_append]; rfl⟩

theorem sound_of_reachable {world : World} (h : world.Reachable) : world.store.Sound := by
  obtain ⟨version, moves, rfl⟩ := h
  rw [store_run]
  exact Store.sound_ran (Store.sound_blank version) _

theorem get?_of_change {world : World} {move : Move} {op : Lifecycle.Op} {hash : PaymentHash}
    {current : Option Payment} {updated : Payment} (hreachable : world.Reachable)
    (hperformed : world.performed move = [op]) (hget : world.store.get? hash = .ok current)
    (h : Lifecycle.Change hash op current updated) :
    (world.step move).store.get? hash = .ok (some updated) := by
  have hcons := (sound_of_reachable hreachable).consistent
  rw [store_step, hperformed, Store.ran_cons, Store.ran_nil, Store.get?_step hcons op hget,
    Lifecycle.after_of_change h]

theorem workers_of_idle? {world : World} {name : String} {sender : Sender}
    (h : world.idle? name = some sender) :
    world.workers name = some ⟨sender, .idle⟩ := by
  rw [idle?] at h
  split at h
  · rename_i hworker
    cases h
    exact hworker
  · cases h

theorem idle?_start {world : World} {info : CreationInfo} (name : String)
    (haccepts : world.store.Accepts (.start info)) :
    (world.step (.start name info)).idle? name = some ⟨info.hash, 0, .empty⟩ := by
  obtain ⟨answer, reached, happly⟩ := haccepts
  rw [Store.apply] at happly
  rw [step, Sender.start]
  cases hstart : world.store.start info with
  | error e =>
    rw [hstart] at happly
    cases happly
  | ok store => simp [idle?, set, Except.map]

theorem registered?_of_idle {world : World} {name : String} {sender : Sender} {now : UInt64}
    {route : Route} {sessionKey : SecretKey} (hidle : world.idle? name = some sender)
    (haccepts : world.store.Accepts
      (.register sender.hash ⟨sender.nextId, sessionKey, route, now⟩)) :
    world.registered? (.register name now route sessionKey) =
      some (sender.hash, ⟨sender.nextId, sessionKey, route, now⟩) := by
  obtain ⟨answer, reached, happly⟩ := haccepts
  rw [Store.apply, map_eq_ok_iff] at happly
  obtain ⟨⟨payment, stored⟩, hregister, _⟩ := happly
  have hdone := register_eq_ok_iff.2 ⟨rfl, rfl, payment, hregister⟩
  rw [registered?, hidle]
  dsimp only
  rw [hdone]

theorem register_of_registered {world : World} {move : Move} {hash : PaymentHash}
    {info : AttemptInfo} (h : world.registered? move = some (hash, info)) :
    ∃ name now route sessionKey sender payment store,
      move = .register name now route sessionKey ∧ world.idle? name = some sender ∧
        sender.hash = hash ∧ info = ⟨sender.nextId, sessionKey, route, now⟩ ∧
        world.store.register hash info = .ok (payment, store) := by
  cases move with
  | register name now route sessionKey =>
    rw [registered?] at h
    cases hidle : world.idle? name with
    | none =>
      rw [hidle] at h
      cases h
    | some sender =>
      rw [hidle] at h
      dsimp only at h
      cases hdone : sender.register world.store now route sessionKey with
      | error e =>
        rw [hdone] at h
        cases h
      | ok done =>
        rw [hdone] at h
        cases h
        obtain ⟨hinfo, _, payment, hregister⟩ := register_eq_ok_iff.1 hdone
        exact ⟨name, now, route, sessionKey, sender, payment, _, rfl, hidle, rfl, hinfo, hregister⟩
  | _ => cases h

theorem performed_of_registered {world : World} {move : Move} {hash : PaymentHash}
    {info : AttemptInfo} (h : world.registered? move = some (hash, info)) :
    world.performed move = [.register hash info] ∧
      world.store.Accepts (.register hash info) := by
  obtain ⟨name, now, route, sessionKey, sender, payment, store, rfl, hidle, rfl, rfl, hregister⟩ :=
    register_of_registered h
  refine ⟨?_, _, _, Store.apply_register hregister⟩
  rw [performed, hidle]

theorem store_of_registered {world : World} {move : Move} {hash : PaymentHash} {info : AttemptInfo}
    (h : world.registered? move = some (hash, info)) :
    (world.step move).store = (world.store.step (.register hash info)).2 := by
  rw [store_step, (performed_of_registered h).1, Store.ran_cons, Store.ran_nil]

theorem set_set (world : World) (store : Store) (name : String) (worker other : Option Worker) :
    set ⟨store, world.set name worker⟩ name other = world.set name other := by
  funext found
  simp only [set]
  split <;> rfl

theorem set_self (world : World) (name : String) (worker : Option Worker) :
    world.set name worker name = worker := if_pos rfl

theorem worker_of_set {world : World} {name other : String} {worker : Option Worker}
    {found : Worker} (h : world.set other worker name = some found) :
    (name = other ∧ worker = some found) ∨ world.workers name = some found := by
  rw [set] at h
  split at h
  · rename_i hname
    exact .inl ⟨hname, h⟩
  · exact .inr h

/-- Where a worker that is there after a move comes from. -/
inductive Origin (world : World) (move : Move) (name : String) : Worker → Prop
  | kept {worker : Worker} (h : world.workers name = some worker) : Origin world move name worker
  | started {info : CreationInfo} {sender : Sender} {store : Store}
      (hmove : move = .start name info) (h : Sender.start world.store info = .ok (sender, store)) :
    Origin world move name ⟨sender, .idle⟩
  | resumed {hash : PaymentHash} {sender : Sender} (hmove : move = .resume name hash)
      (h : Sender.resume world.store hash = .ok sender) : Origin world move name ⟨sender, .idle⟩
  | registered {before sender : Sender} {now : UInt64} {route : Route} {sessionKey : SecretKey}
      {info : AttemptInfo} {store : Store} (hmove : move = .register name now route sessionKey)
      (hidle : world.idle? name = some before)
      (h : before.register world.store now route sessionKey = .ok (info, sender, store)) :
    Origin world move name ⟨sender, .registered info⟩
  | handedOff {sender : Sender} {info : AttemptInfo} (hmove : move = .handOff name)
      (h : world.workers name = some ⟨sender, .registered info⟩) :
    Origin world move name ⟨sender, .handedOff info⟩
  | concluded {sender : Sender} {info : AttemptInfo} {now : UInt64} {verdict : Except Error Unit}
      (hmove : move = .conclude name now verdict)
      (h : world.workers name = some ⟨sender, .handedOff info⟩) :
    Origin world move name ⟨(sender.conclude world.store now verdict).1, .idle⟩

theorem origin_step {world : World} {move : Move} {name : String} {worker : Worker}
    (h : (world.step move).workers name = some worker) : world.Origin move name worker := by
  cases move with
  | control => exact .kept h
  | start other info =>
    rw [step] at h
    cases hstart : Sender.start world.store info with
    | error e =>
      rw [hstart] at h
      exact .kept h
    | ok done =>
      rw [hstart] at h
      rcases worker_of_set h with ⟨rfl, hnew⟩ | hkept
      · cases hnew
        exact .started rfl hstart
      · exact .kept hkept
  | resume other hash =>
    rw [step] at h
    cases hresume : Sender.resume world.store hash with
    | error e =>
      rw [hresume] at h
      exact .kept h
    | ok sender =>
      rw [hresume] at h
      rcases worker_of_set h with ⟨rfl, hnew⟩ | hkept
      · cases hnew
        exact .resumed rfl hresume
      · exact .kept hkept
  | register other now route sessionKey =>
    rw [step] at h
    cases hidle : world.idle? other with
    | none =>
      rw [hidle] at h
      exact .kept h
    | some before =>
      rw [hidle] at h
      dsimp only at h
      cases hregister : before.register world.store now route sessionKey with
      | error e =>
        rw [hregister] at h
        exact .kept h
      | ok done =>
        rw [hregister] at h
        rcases worker_of_set h with ⟨rfl, hnew⟩ | hkept
        · cases hnew
          exact .registered rfl hidle hregister
        · exact .kept hkept
  | handOff other =>
    rw [step] at h
    split at h
    · rename_i sender info hworker
      rcases worker_of_set h with ⟨rfl, hnew⟩ | hkept
      · cases hnew
        exact .handedOff rfl hworker
      · exact .kept hkept
    · exact .kept h
  | conclude other now verdict =>
    rw [step] at h
    split at h
    · rename_i sender info hworker
      rcases worker_of_set h with ⟨rfl, hnew⟩ | hkept
      · cases hnew
        exact .concluded rfl hworker
      · exact .kept hkept
    · exact .kept h
  | failAttempt other =>
    rw [step] at h
    split at h <;> exact .kept h
  | settle other =>
    rw [step] at h
    split at h
    · exact .kept h
    · rcases worker_of_set h with ⟨_, hnew⟩ | hkept
      · cases hnew
      · exact .kept hkept
  | giveUp other =>
    rw [step] at h
    split at h
    · exact .kept h
    · rcases worker_of_set h with ⟨_, hnew⟩ | hkept
      · cases hnew
      · exact .kept hkept

theorem step_register {world : World} {name : String} {sender : Sender} {now : UInt64}
    {route : Route} {sessionKey : SecretKey} {payment : Payment} {reached : Store}
    (hidle : world.idle? name = some sender)
    (h : world.store.register sender.hash ⟨sender.nextId, sessionKey, route, now⟩ =
      .ok (payment, reached)) :
    world.step (.register name now route sessionKey) =
      ⟨reached, world.set name (some ⟨{ sender with
        nextId := sender.nextId + 1, undo := sender.undo.push ⟨sender.hash, sender.nextId⟩ },
        .registered ⟨sender.nextId, sessionKey, route, now⟩⟩)⟩ := by
  simp only [step, hidle, Sender.register, h]

theorem dispatched?_set (store : Store) (world : World) (name other : String)
    (worker : Option Worker) :
    dispatched? ⟨store, world.set other worker⟩ (.handOff name) =
      if name = other then worker.bind Worker.awaiting? else world.dispatched? (.handOff name) := by
  simp only [dispatched?, set]
  split <;> rfl

theorem dispatched?_of_registered {world : World} {name : String} {now : UInt64} {route : Route}
    {sessionKey : SecretKey} {hash : PaymentHash} {info : AttemptInfo}
    (h : world.registered? (.register name now route sessionKey) = some (hash, info)) :
    (world.step (.register name now route sessionKey)).dispatched? (.handOff name) =
      some (hash, info) := by
  obtain ⟨_, _, _, _, sender, payment, store, hmove, hidle, rfl, rfl, hregister⟩ :=
    register_of_registered h
  cases hmove
  rw [step_register hidle hregister, dispatched?_set, if_pos rfl]
  rfl

theorem store_handOff (world : World) (name : String) :
    (world.step (.handOff name)).store = world.store := store_step world (.handOff name)

theorem idle?_handOff (world : World) (name other : String) :
    (world.step (.handOff name)).idle? other = world.idle? other := by
  rw [step]
  split
  · rename_i sender info hworker
    by_cases hother : other = name
    · subst hother
      simp only [idle?, set, if_true, hworker]
    · simp only [idle?, set, if_neg hother]
  · rfl

theorem dispatched?_control (world : World) (op : Lifecycle.Op) (name : String) :
    (world.step (.control op)).dispatched? (.handOff name) = world.dispatched? (.handOff name) :=
  rfl

theorem dispatched?_start (world : World) {name other : String} (info : CreationInfo)
    (hother : name ≠ other) :
    (world.step (.start other info)).dispatched? (.handOff name) =
      world.dispatched? (.handOff name) := by
  rw [step]
  split
  · rw [dispatched?_set, if_neg hother]
  · rfl

end Lightpay.World

namespace Lightpay.Sample

open Lifecycle

def begun : World := (World.blank none).step (.start "first" creation)

def firstRegister : Move := .register "first" 1700000001 route attempt.sessionKey

def launching : World := begun.step firstRegister

def sent : World := launching.step (.handOff "first")

def lost : World := sent.step (.control (.giveUp hash .timeout))

theorem begun_reachable : begun.Reachable := World.reachable_step ⟨none, [], rfl⟩ _

theorem launching_reachable : launching.Reachable := World.reachable_step begun_reachable _

theorem sent_reachable : sent.Reachable := World.reachable_step launching_reachable _

theorem lost_reachable : lost.Reachable := World.reachable_step sent_reachable _

theorem lost_consistent : lost.store.Consistent :=
  (World.sound_of_reachable lost_reachable).consistent

theorem accepts_creation : Store.empty.Accepts (.start creation) :=
  (Store.accepts_iff consistent_empty rfl get?_empty).2 ⟨_, change_start⟩

theorem get?_begun : begun.store.get? hash = .ok (some (.fresh creation)) :=
  World.get?_of_change ⟨none, [], rfl⟩ rfl get?_empty change_start

theorem idle?_begun : begun.idle? "first" = some ⟨hash, 0, .empty⟩ :=
  World.idle?_start "first" accepts_creation

theorem registered?_begun : begun.registered? firstRegister = some (hash, attempt) :=
  World.registered?_of_idle idle?_begun
    ((Store.accepts_iff (World.sound_of_reachable begun_reachable).consistent rfl get?_begun).2
      ⟨_, change_register⟩)

theorem register_begun : begun.store.register hash attempt =
    .ok (pending, begun.store.put hash pending) :=
  Store.update_ok begun.store hash _ _ pending get?_begun
    ((register_ok_iff hash attempt _ pending).2 change_register) rfl

theorem get?_launching : launching.store.get? hash = .ok (some pending) :=
  World.get?_of_change begun_reachable (World.performed_of_registered registered?_begun).1
    get?_begun change_register

theorem dispatched?_launching : launching.dispatched? (.handOff "first") = some (hash, attempt) :=
  World.dispatched?_of_registered registered?_begun

theorem get?_sent : sent.store.get? hash = .ok (some pending) :=
  (congrArg (Store.get? · hash) (World.store_handOff launching "first")).trans get?_launching

theorem get?_lost : lost.store.get? hash = .ok (some givenUp) :=
  World.get?_of_change sent_reachable rfl get?_sent change_giveUp

end Lightpay.Sample
