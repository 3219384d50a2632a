import Lightpay.Proofs.Sender.Launch
import Lightpay.Proofs.Store.Atomicity
import Lightpay.Session

/-! The steps of a session. What a step does to the store is a run of operations on payments, or
one write that goes past them. What it does to a sender is what the sender's own operations do,
unless the sender is lost or replaced. -/

namespace Lightpay

theorem Sender.launch_store (sender : Sender) (store : Store) (now later : UInt64)
    (network : AttemptInfo → Script) (route : Route) (sessionKey : SecretKey) :
    (sender.launch store now later network route sessionKey).store =
      store.ran (sender.performed store now later network route sessionKey) := by
  let info : AttemptInfo := ⟨sender.nextId, sessionKey, route, now⟩
  have hstep : (store.step (.register sender.hash info)).2 =
      store.committed (store.register sender.hash info) := World.step_committed store rfl
  rw [launch, performed, register, Store.ran_cons, hstep]
  cases store.register sender.hash info with
  | error e => rfl
  | ok done =>
    dsimp only [Store.committed]
    rw [Store.ran_append]
    exact World.conclude_store ..

theorem Sender.performed_of_registered {sender : Sender} {store registered : Store}
    {payment : Payment} {now later : UInt64} {network : AttemptInfo → Script} {route : Route}
    {sessionKey : SecretKey} {info : AttemptInfo}
    (hinfo : info = ⟨sender.nextId, sessionKey, route, now⟩)
    (h : store.register sender.hash info = .ok (payment, registered)) :
    sender.performed store now later network route sessionKey =
      .register sender.hash info :: ((network info).ops ++
        { sender with
          nextId := sender.nextId + 1,
          undo := sender.undo.push ⟨sender.hash, sender.nextId⟩ }.undone later
          (network info).verdict) := by
  subst hinfo
  rw [performed, register, h]

theorem FailUndispatched.run_committed (now : UInt64) (action : FailUndispatched) (store : Store) :
    store.committed ((action.run now store).1.map fun () => ((), (action.run now store).2)) =
      (store.step (action.op now)).2 := by
  rw [← World.undo_run, run]
  cases store.failAttempt action.hash action.id ⟨.internalError, now, none⟩ with
  | ok done => rfl
  | error e => cases e <;> rfl

theorem Sender.undo_launch {sender : Sender} {store : Store} {now later : UInt64}
    {network : AttemptInfo → Script} {route : Route} {sessionKey : SecretKey}
    (hundo : sender.undo = .empty) :
    (sender.launch store now later network route sessionKey).sender.undo = .empty := by
  cases hregister : store.register sender.hash ⟨sender.nextId, sessionKey, route, now⟩ with
  | error e => rw [launch_of_refused hregister, hundo]
  | ok done => rw [launch_of_registered hundo rfl hregister]

namespace Store

variable {store other : Store}

theorem opened_congr (hversion : other.version = store.version)
    (h : store.opened = .ok store) : other.opened = .ok other := by
  rw [opened] at h ⊢
  rw [hversion]
  cases hmark : store.version with
  | none =>
    rw [hmark, Except.ok.injEq] at h
    rw [← h] at hmark
    cases hmark
  | some text =>
    rw [hmark] at h
    dsimp only at h ⊢
    cases hread : readVersion text with
    | error fault =>
      rw [hread] at h
      cases h
    | ok version =>
      rw [hread] at h
      dsimp only at h ⊢
      by_cases hcurrent : version = currentVersion
      · rw [if_pos hcurrent]
      · rw [if_neg hcurrent] at h
        cases h

theorem consistent_put {hash : PaymentHash} {payment : Payment} (hcons : store.Consistent)
    (hhash : payment.info.hash = hash) : (store.put hash payment).Consistent := by
  intro own
  rw [get?_put]
  by_cases hown : hash = own
  · subst hown
    rw [if_pos rfl]
    refine ⟨some payment, rfl, ?_⟩
    rintro _ ⟨⟩
    exact hhash
  · rw [if_neg hown]
    exact hcons own

theorem consistent_without (hcons : store.Consistent) (selects : Payment → Bool) :
    (store.without selects).Consistent := by
  intro own
  obtain ⟨current, hget, hhash⟩ := hcons own
  refine ⟨_, get?_without store selects own current hget, fun payment hpayment => ?_⟩
  exact hhash payment (Option.filter_eq_some_iff.1 hpayment).1

end Store

namespace Session

@[simp] theorem run_nil (session : Session) : session.run [] = ([], session) := rfl

@[simp] theorem run_cons (session : Session) (now : UInt64) (op : Op)
    (steps : List (UInt64 × Op)) :
    session.run ((now, op) :: steps) =
      ((session.step now op).1 :: ((session.step now op).2.run steps).1,
        ((session.step now op).2.run steps).2) := rfl

variable {session : Session} {now : UInt64} {op : Op} {name other : String}
  {sender found : Sender}

theorem lookup_without (senders : List (String × Sender)) (name other : String) :
    (senders.filter (·.1 ≠ name)).lookup other =
      if other = name then none else senders.lookup other := by
  induction senders with
  | nil => simp
  | cons entry senders ih =>
    obtain ⟨key, sender⟩ := entry
    rw [lookup_cons_eq]
    by_cases hkey : key = name
    · subst hkey
      rw [List.filter_cons_of_neg (by simp), ih]
      split <;> rfl
    · rw [List.filter_cons_of_pos (by simpa using hkey), lookup_cons_eq, ih]
      by_cases hother : other = key
      · rw [if_pos hother, if_pos hother, if_neg (hother ▸ hkey)]
      · rw [if_neg hother, if_neg hother]

theorem lookup_setSender (session : Session) (name other : String) (sender : Sender) :
    (session.setSender name sender).senders.lookup other =
      if other = name then some sender else session.senders.lookup other := by
  change ((name, sender) :: session.senders.filter (·.1 ≠ name)).lookup other = _
  rw [lookup_cons_eq, lookup_without]
  split <;> rfl

theorem lookup_dropSender (session : Session) (name other : String) :
    (session.dropSender name).senders.lookup other =
      if other = name then none else session.senders.lookup other :=
  lookup_without session.senders name other

theorem lookup_of_setSender
    (h : (session.setSender other sender).senders.lookup name = some found) :
    (other = name ∧ sender = found) ∨ session.senders.lookup name = some found := by
  rw [lookup_setSender] at h
  split at h
  · rename_i hname
    exact .inl ⟨hname.symm, Option.some.inj h⟩
  · exact .inr h

theorem lookup_of_dropSender (h : (session.dropSender other).senders.lookup name = some sender) :
    session.senders.lookup name = some sender := by
  rw [lookup_dropSender] at h
  split at h
  · cases h
  · exact h

/-- How the store after a step comes about. -/
inductive Wrote (session : Session) (now : UInt64) (op : Op) (reached : Store) : Prop
  | ran (h : reached = session.store.ran (session.performed now op))
  | put {hash : PaymentHash} {payment : Payment} (hop : op = .put hash payment)
      (hhash : payment.info.hash = hash) (h : reached = session.store.put hash payment)
  | removed {status : Status} (hop : op = .removeAll status)
      (h : reached = session.store.without (·.status = status))

/-- Where a sender that is there after a step comes from. -/
inductive Origin (session : Session) (now : UInt64) (op : Op) (name : String) (sender : Sender) :
    Prop
  | kept (h : session.senders.lookup name = some sender)
  | started {info : CreationInfo} {store : Store} (hop : op = .senderStart name info)
      (h : Sender.start session.store info = .ok (sender, store))
  | resumed {hash : PaymentHash} (hop : op = .senderResume name hash)
      (h : Sender.resume session.store hash = .ok sender)
  | launched {before : Sender} {route : Route} {sessionKey : SecretKey} {peer : NodeAddress}
      {ended : UInt64} (hop : op = .senderLaunch name route sessionKey peer ended)
      (hbefore : session.senders.lookup name = some before)
      (h : sender =
        (before.launch session.store now ended session.transport.script route sessionKey).sender)

structure Turn (session : Session) (now : UInt64) (op : Op) (after : Session) : Prop where
  persistent : after.persistent = session.persistent
  isOpen : after.isOpen = session.isOpen
  wrote : session.Wrote now op after.store
  origin : ∀ name sender, after.senders.lookup name = some sender →
    session.Origin now op name sender

theorem turn_same (h : session.store.ran (session.performed now op) = session.store) :
    session.Turn now op session :=
  ⟨rfl, rfl, .ran h.symm, fun _ _ => .kept⟩

theorem turn_commit {result : Except Error (α × Store)} (answer : α → Answer)
    (h : session.Wrote now op (session.store.committed result)) :
    session.Turn now op (session.commit result answer).2 := by
  cases result with
  | error e => exact ⟨rfl, rfl, h, fun _ _ => .kept⟩
  | ok done => exact ⟨rfl, rfl, h, fun _ _ hlookup => .kept hlookup⟩

theorem turn_conclude {result : Except Error (α × Store)} (answer : α → Answer)
    (h : session.Wrote now op (session.store.committed result)) :
    session.Turn now op ((session.dropSender name).commit result answer).2 := by
  cases result with
  | error e => exact ⟨rfl, rfl, h, fun _ _ hlookup => .kept (lookup_of_dropSender hlookup)⟩
  | ok done => exact ⟨rfl, rfl, h, fun _ _ hlookup => .kept (lookup_of_dropSender hlookup)⟩

theorem turn_withSender {use : Sender → Except Fault Answer × Session}
    (hnone : session.senders.lookup name = none → session.performed now op = [])
    (huse : ∀ sender, session.senders.lookup name = some sender →
      session.Turn now op (use sender).2) :
    session.Turn now op (session.withSender name use).2 := by
  rw [withSender]
  cases hlookup : session.senders.lookup name with
  | none => exact turn_same (by rw [hnone hlookup, Store.ran_nil])
  | some sender => exact huse sender hlookup

theorem session_launch (session : Session) (now : UInt64) (name : String) (route : Route)
    (sessionKey : SecretKey) (peer : NodeAddress) (ended : UInt64) (sender : Sender) :
    let launched := sender.launch session.store now ended session.transport.script route sessionKey
    ∃ dispatches answers, (session.launch now name route sessionKey peer ended sender).2 =
      { session.setSender name launched.sender with
        store := launched.store, dispatches, answers } := by
  intro launched
  rw [launch]
  dsimp only
  cases launched.result <;> exact ⟨_, _, rfl⟩

theorem performed_launch {route : Route} {sessionKey : SecretKey} {peer : NodeAddress}
    {ended : UInt64} (hlookup : session.senders.lookup name = some sender) :
    session.performed now (.senderLaunch name route sessionKey peer ended) =
      sender.performed session.store now ended session.transport.script route sessionKey := by
  rw [performed, hlookup]

theorem turn_launch {route : Route} {sessionKey : SecretKey} {peer : NodeAddress}
    {ended : UInt64} (hlookup : session.senders.lookup name = some sender) :
    session.Turn now (.senderLaunch name route sessionKey peer ended)
      (session.launch now name route sessionKey peer ended sender).2 := by
  have hstore :=
    sender.launch_store session.store now ended session.transport.script route sessionKey
  obtain ⟨_, _, hafter⟩ := session.session_launch now name route sessionKey peer ended sender
  rw [hafter]
  refine ⟨rfl, rfl, .ran (performed_launch hlookup ▸ hstore), fun other found hfound => ?_⟩
  rcases lookup_of_setSender hfound with ⟨rfl, rfl⟩ | hkept
  · exact .launched rfl hlookup rfl
  · exact .kept hkept

/-- The store is kept in a file, and it is open. -/
structure OnFile (session : Session) : Prop where
  persistent : session.persistent = true
  isOpen : session.isOpen = true
  opened : session.store.opened = .ok session.store

/-- The file holds payments only, and each stands under its own hash. -/
structure Ready (session : Session) : Prop where
  persistent : session.persistent = true
  isOpen : session.isOpen = true
  opened : session.store.opened = .ok session.store
  consistent : session.store.Consistent
  tidy : ∀ name sender, session.senders.lookup name = some sender → sender.undo = .empty

theorem onFile_of_ready (hready : session.Ready) : session.OnFile :=
  ⟨hready.persistent, hready.isOpen, hready.opened⟩

theorem reopen_of_onFile (hfile : session.OnFile) :
    session.reopen = (.ok (.control .done), { session with senders := [] }) := by
  have hopen := hfile.isOpen
  have hopened := hfile.opened
  rw [reopen, if_pos hfile.persistent, openStore]
  dsimp only
  rw [hopened]
  obtain ⟨_, _, _, _, _, _, _⟩ := session
  subst hopen
  rfl

theorem turn_stepOpen (session : Session) (now : UInt64) (op : Op) :
    session.Turn now op (session.stepOpen now op).2 := by
  cases op with
  | control op => exact turn_commit _ (.ran (Store.step_eq_committed session.store op).symm)
  | put hash payment =>
    apply turn_commit
    cases hupdate : session.store.update hash fun _ => .ok payment with
    | error e => exact .ran rfl
    | ok done =>
      obtain ⟨_, _, hpayment, hhash, hput⟩ := Store.update_eq_ok_iff.1 hupdate
      cases hpayment
      exact .put rfl hhash hput
  | get hash =>
    apply turn_commit
    cases session.store.get? hash <;> exact .ran rfl
  | removeAll status =>
    apply turn_commit
    cases hremove : session.store.remove (·.status = status) with
    | error e => exact .ran rfl
    | ok done =>
      obtain ⟨_, _, _, hwithout⟩ := Store.remove_eq_ok_iff.1 hremove
      exact .removed rfl hwithout
  | undo action => exact turn_commit _ (.ran (action.run_committed now session.store))
  | senderStart name info =>
    have hstep : (session.store.step (.start info)).2 =
        session.store.committed (session.store.update info.hash (Lifecycle.start info)) :=
      World.step_committed session.store rfl
    rw [stepOpen]
    cases hupdate : session.store.update info.hash (Lifecycle.start info) with
    | error e =>
      rw [hupdate] at hstep
      have hstart : Sender.start session.store info = .error e := by
        rw [Sender.start, Store.start, hupdate]
        rfl
      rw [hstart]
      exact turn_same hstep
    | ok done =>
      rw [hupdate] at hstep
      have hstart : Sender.start session.store info = .ok (⟨info.hash, 0, .empty⟩, done.2) := by
        rw [Sender.start, Store.start, hupdate]
        rfl
      rw [hstart]
      refine ⟨rfl, rfl, .ran hstep.symm, fun other found hfound => ?_⟩
      rcases lookup_of_setSender hfound with ⟨rfl, rfl⟩ | hkept
      · exact .started rfl hstart
      · exact .kept hkept
  | senderResume name hash =>
    rw [stepOpen]
    cases hresume : Sender.resume session.store hash with
    | error e => exact turn_same rfl
    | ok sender =>
      refine ⟨rfl, rfl, .ran rfl, fun other found hfound => ?_⟩
      rcases lookup_of_setSender hfound with ⟨rfl, rfl⟩ | hkept
      · exact .resumed rfl hresume
      · exact .kept hkept
  | senderLaunch name route sessionKey peer ended =>
    exact turn_withSender (fun hnone => by rw [performed, hnone]) fun sender => turn_launch
  | senderFailAttempt name id failure =>
    refine turn_withSender (fun hnone => by rw [performed, hnone]) fun sender hlookup => ?_
    refine turn_commit _ (.ran ?_)
    rw [performed, hlookup]
    exact (World.step_committed _ rfl).symm
  | senderPayment name =>
    refine turn_withSender (fun _ => rfl) fun sender _ => turn_commit _ ?_
    cases sender.payment session.store <;> exact .ran rfl
  | senderSettle name id preimage =>
    refine turn_withSender (fun hnone => by rw [performed, hnone]) fun sender hlookup => ?_
    refine turn_conclude _ (.ran ?_)
    rw [performed, hlookup]
    exact (World.step_committed _ rfl).symm
  | senderGiveUp name reason =>
    refine turn_withSender (fun hnone => by rw [performed, hnone]) fun sender hlookup => ?_
    refine turn_conclude _ (.ran ?_)
    rw [performed, hlookup]
    exact (World.step_committed _ rfl).symm
  | _ => exact turn_same rfl

theorem turn_step (hfile : session.OnFile) (now : UInt64) (hedits : ¬ op.Edits) :
    session.Turn now op (session.step now op).2 := by
  have hturn := session.turn_stepOpen now op
  cases op with
  | setTransport => exact ⟨rfl, rfl, .ran rfl, fun _ _ hlookup => .kept hlookup⟩
  | dispatched => exact ⟨rfl, rfl, .ran rfl, fun _ _ hlookup => .kept hlookup⟩
  | writeText => exact absurd trivial hedits
  | writeVersion => exact absurd trivial hedits
  | reopen =>
    rw [step, reopen_of_onFile hfile]
    exact ⟨rfl, rfl, .ran rfl, nofun⟩
  | _ =>
    simp only [step, hfile.isOpen, if_true]
    exact hturn

theorem step_start {info : CreationInfo} {store : Store} (hopen : session.isOpen = true)
    (h : Sender.start session.store info = .ok (sender, store)) :
    session.step now (.senderStart name info) =
      (.ok (.hash info.hash), { session with store }.setSender name sender) := by
  simp only [step, hopen, if_true, stepOpen, h]

theorem start_of_ok {info : CreationInfo} {answer : Answer} (hopen : session.isOpen = true)
    (hok : (session.step now (.senderStart name info)).1 = .ok answer) :
    ∃ sender store, Sender.start session.store info = .ok (sender, store) := by
  simp only [step, hopen, if_true, stepOpen] at hok
  cases hstart : Sender.start session.store info with
  | error e =>
    rw [hstart] at hok
    cases hok
  | ok started => exact ⟨started.1, started.2, rfl⟩

theorem step_resume {hash : PaymentHash} (hopen : session.isOpen = true)
    (h : Sender.resume session.store hash = .ok sender) :
    session.step now (.senderResume name hash) =
      (.ok (.hash hash), session.setSender name sender) := by
  simp only [step, hopen, if_true, stepOpen, h]

theorem resume_of_ok {hash : PaymentHash} {answer : Answer} (hopen : session.isOpen = true)
    (hok : (session.step now (.senderResume name hash)).1 = .ok answer) :
    ∃ sender, Sender.resume session.store hash = .ok sender := by
  simp only [step, hopen, if_true, stepOpen] at hok
  cases hresume : Sender.resume session.store hash with
  | error e =>
    rw [hresume] at hok
    cases hok
  | ok sender => exact ⟨sender, rfl⟩

theorem step_senderLaunch {route : Route} {sessionKey : SecretKey} {peer : NodeAddress}
    {ended : UInt64} (hopen : session.isOpen = true)
    (hlookup : session.senders.lookup name = some sender) :
    session.step now (.senderLaunch name route sessionKey peer ended) =
      session.launch now name route sessionKey peer ended sender := by
  simp only [step, hopen, if_true, stepOpen, withSender, hlookup]

theorem step_launch {route : Route} {sessionKey : SecretKey} {peer : NodeAddress}
    {ended : UInt64} (hopen : session.isOpen = true)
    (hlookup : session.senders.lookup name = some sender) :
    let launched := sender.launch session.store now ended session.transport.script route sessionKey
    let reached := (session.step now (.senderLaunch name route sessionKey peer ended)).2
    reached.store = launched.store ∧ reached.senders.lookup name = some launched.sender := by
  intro launched reached
  have hset := lookup_setSender session name name launched.sender
  rw [if_pos rfl] at hset
  obtain ⟨_, _, hafter⟩ := session.session_launch now name route sessionKey peer ended sender
  have hreached : reached = _ := congrArg Prod.snd (step_senderLaunch hopen hlookup)
  rw [hreached, hafter]
  exact ⟨rfl, hset⟩

theorem step_launch_missing {route : Route} {sessionKey : SecretKey} {peer : NodeAddress}
    {ended : UInt64} (hopen : session.isOpen = true)
    (hlookup : session.senders.lookup name = none) :
    (session.step now (.senderLaunch name route sessionKey peer ended)).2 = session := by
  simp only [step, hopen, if_true, stepOpen, withSender, hlookup]

theorem onFile_turn {after : Session} (hfile : session.OnFile) (hturn : session.Turn now op after) :
    after.OnFile where
  persistent := hturn.persistent.trans hfile.persistent
  isOpen := hturn.isOpen.trans hfile.isOpen
  opened := by
    refine Store.opened_congr ?_ hfile.opened
    cases hturn.wrote with
    | ran h => rw [h, Store.version_ran]
    | put _ _ h => rw [h]; rfl
    | removed _ h => rw [h]; rfl

theorem ready_turn {after : Session} (hready : session.Ready) (hturn : session.Turn now op after) :
    after.Ready where
  persistent := hturn.persistent.trans hready.persistent
  isOpen := hturn.isOpen.trans hready.isOpen
  opened := (onFile_turn (onFile_of_ready hready) hturn).opened
  consistent := by
    cases hturn.wrote with
    | ran h => exact h ▸ Store.consistent_ran hready.consistent _
    | put _ hhash h => exact h ▸ Store.consistent_put hready.consistent hhash
    | removed _ h => exact h ▸ Store.consistent_without hready.consistent _
  tidy := by
    intro name sender hlookup
    cases hturn.origin name sender hlookup with
    | kept h => exact hready.tidy name sender h
    | started _ h =>
      obtain ⟨store, _, hstarted⟩ := map_eq_ok_iff.1 h
      cases hstarted
      rfl
    | resumed _ h => exact Sender.undo_resume h
    | launched _ hbefore h => exact h ▸ Sender.undo_launch (hready.tidy name _ hbefore)

theorem ready_new : (Session.new true).Ready where
  persistent := rfl
  isOpen := rfl
  opened := rfl
  consistent := Store.consistent_blank _
  tidy := nofun

theorem ready_of_reached (h : session.Reached) : session.Ready := by
  induction h with
  | new => exact ready_new
  | step _ now hedits ih => exact ready_turn ih (turn_step (onFile_of_ready ih) now hedits)

end Session

end Lightpay
