import Lightpay.Proofs.Sender.Numbering
import Lightpay.Proofs.Session.LostSenders

/-! Recovery from a crash. All that is lost with a sender can be read off the store again: which
number comes next, as long as the sender was alone in registering attempts. -/

namespace Lightpay

open Lifecycle

namespace Session

variable {session : Session} {hash : PaymentHash} {name : String} {now : UInt64} {op : Op}
  {sender : Sender} {payment : Payment}

/-- The step leaves the payment under the hash to the sender with the name: nothing starts it again,
registers an attempt for it or stores another in its place, and no other sender takes the name. -/
structure LeavesTo (session : Session) (hash : PaymentHash) (name : String) (now : UInt64)
    (op : Op) : Prop where
  no_edit : ¬ op.Edits
  no_put : ∀ payment, op ≠ .put hash payment
  no_start : ∀ info : CreationInfo, info.hash = hash →
    ¬ session.store.Carries (session.performed now op) (.start info)
  own_register : ∀ before info later, session.performed now op =
      before ++ .register hash info :: later →
    (session.store.ran before).Accepts (.register hash info) →
    before = [] ∧ ∃ route sessionKey peer ended, op = .senderLaunch name route sessionKey peer ended
  name_kept : (∃ info, op = .senderStart name info) ∨ (∃ other, op = .senderResume name other) →
    ∃ fault, (session.step now op).1 = .error fault

/-- The sender with the name works on the payment under the hash: it started the payment or took it
up, and since then every step left the payment to it. -/
inductive InUse (hash : PaymentHash) (name : String) : Session → Prop
  | started {session : Session} {now : UInt64} {info : CreationInfo} {answer : Answer}
      (hreached : session.Reached) (hhash : info.hash = hash)
      (hok : (session.step now (.senderStart name info)).1 = .ok answer) :
    InUse hash name (session.step now (.senderStart name info)).2
  | resumed {session : Session} {now : UInt64} {answer : Answer} (hreached : session.Reached)
      (hok : (session.step now (.senderResume name hash)).1 = .ok answer) :
    InUse hash name (session.step now (.senderResume name hash)).2
  | step {session : Session} {now : UInt64} {op : Op} (huse : InUse hash name session)
      (hleaves : session.LeavesTo hash name now op) :
    InUse hash name (session.step now op).2

theorem reached_of_inUse (h : InUse hash name session) : session.Reached := by
  induction h with
  | started hreached => exact hreached.step _ id
  | resumed hreached => exact hreached.step _ id
  | step _ hleaves ih => exact ih.step _ hleaves.no_edit

/-- The sender with the name, if it is there, works on the payment and is in step with the store. -/
def InStep (session : Session) (hash : PaymentHash) (name : String) : Prop :=
  ∀ sender, session.senders.lookup name = some sender →
    sender.hash = hash ∧ sender.Numbered session.store

theorem keepsIds_of_leaves (hready : session.Ready) (hleaves : session.LeavesTo hash name now op)
    (hlaunch : ∀ route sessionKey peer ended, op ≠ .senderLaunch name route sessionKey peer ended) :
    session.store.KeepsIds (session.step now op).2.store hash := by
  cases (turn_step (onFile_of_ready hready) now hleaves.no_edit).wrote with
  | ran h =>
    rw [h]
    refine Store.keepsIds_ran _ hleaves.no_start ?_
    rintro info ⟨before, later, hperformed, haccepts⟩
    obtain ⟨_, route, sessionKey, peer, ended, hop⟩ :=
      hleaves.own_register before info later hperformed haccepts
    exact hlaunch route sessionKey peer ended hop
  | @put own payment hop _ h =>
    have hown : own ≠ hash := by
      rintro rfl
      exact hleaves.no_put payment hop
    rw [h]
    exact Store.keepsIds_of_get? (.inl (by rw [Store.get?_put, if_neg hown]))
  | removed _ h =>
    rw [h]
    exact Store.keepsIds_of_get? (Store.get?_without_cases ..)

/-- After the registration, a launch leaves the attempts as they are but for outcomes. -/
theorem keepsIds_of_launch {route : Route} {sessionKey : SecretKey} {peer : NodeAddress}
    {ended : UInt64} {registered : Store} (hlookup : session.senders.lookup name = some sender)
    (hleaves : session.LeavesTo sender.hash name now
      (.senderLaunch name route sessionKey peer ended))
    (hregister : session.store.register sender.hash ⟨sender.nextId, sessionKey, route, now⟩ =
      .ok (payment, registered)) :
    registered.KeepsIds
      (sender.launch session.store now ended session.transport.script route sessionKey).store
      sender.hash := by
  let info : AttemptInfo := ⟨sender.nextId, sessionKey, route, now⟩
  obtain ⟨later, hlater⟩ : ∃ later,
      sender.performed session.store now ended session.transport.script route sessionKey =
        .register sender.hash info :: later := ⟨_, rfl⟩
  have hperformed : session.performed now (.senderLaunch name route sessionKey peer ended) =
      .register sender.hash info :: later := (performed_launch hlookup).trans hlater
  have hregistered := Store.step_register hregister
  rw [Sender.launch_store, hlater, Store.ran_cons, hregistered]
  apply Store.keepsIds_ran
  · intro creation hhash hcarries
    apply hleaves.no_start creation hhash
    rw [hperformed]
    rw [← hregistered] at hcarries
    exact Store.carries_append_right [.register sender.hash info] hcarries
  · -- An accepted registration here would not be the first thing that the launch performs.
    rintro other ⟨before, rest, rfl, haccepts⟩
    rw [← hregistered] at haccepts
    obtain ⟨hfirst, _⟩ := hleaves.own_register (.register sender.hash info :: before) other rest
      hperformed haccepts
    cases hfirst

theorem inStep_step (hready : session.Ready) (hbefore : session.InStep hash name)
    (hleaves : session.LeavesTo hash name now op) : (session.step now op).2.InStep hash name := by
  intro found hfound
  by_cases hlaunch : ∃ route sessionKey peer ended,
      op = .senderLaunch name route sessionKey peer ended
  · obtain ⟨route, sessionKey, peer, ended, rfl⟩ := hlaunch
    cases hlookup : session.senders.lookup name with
    | none =>
      rw [step_launch_missing hready.isOpen hlookup, hlookup] at hfound
      cases hfound
    | some sender =>
      obtain ⟨rfl, hnumbered⟩ := hbefore sender hlookup
      obtain ⟨hstore, hsender⟩ := step_launch hready.isOpen hlookup
      cases hsender.symm.trans hfound
      rw [hstore]
      exact Sender.numbered_launch (hready.tidy name sender hlookup) hnumbered
        fun payment registered => keepsIds_of_launch hlookup hleaves
  · have hkept : session.senders.lookup name = some found := by
      cases (turn_step (onFile_of_ready hready) now hleaves.no_edit).origin name found hfound with
      | kept h => exact h
      | launched hop => exact absurd ⟨_, _, _, _, hop⟩ hlaunch
      | @started info _ hop h =>
        -- What is left to the sender starts and resumes nothing under its name.
        subst hop
        obtain ⟨fault, hfault⟩ := hleaves.name_kept (.inl ⟨info, rfl⟩)
        rw [step_start hready.isOpen h] at hfault
        cases hfault
      | @resumed other hop h =>
        subst hop
        obtain ⟨fault, hfault⟩ := hleaves.name_kept (.inr ⟨other, rfl⟩)
        rw [step_resume hready.isOpen h] at hfault
        cases hfault
    obtain ⟨rfl, hnumbered⟩ := hbefore found hkept
    exact ⟨rfl, Sender.numbered_of_keepsIds hnumbered (keepsIds_of_leaves hready hleaves
      fun route sessionKey peer ended hop => hlaunch ⟨route, sessionKey, peer, ended, hop⟩)⟩

theorem inStep_of_inUse (h : InUse hash name session) : session.InStep hash name := by
  induction h with
  | @started session now info answer hreached hhash hok =>
    have hopen := (ready_of_reached hreached).isOpen
    obtain ⟨sender, store, hstart⟩ := start_of_ok hopen hok
    rw [step_start hopen hstart]
    intro found hfound
    rw [lookup_setSender, if_pos rfl] at hfound
    cases hfound
    obtain ⟨hown, hnumbered⟩ := Sender.numbered_of_start hstart
    exact ⟨hown.trans hhash, hnumbered⟩
  | @resumed session now answer hreached hok =>
    have hopen := (ready_of_reached hreached).isOpen
    obtain ⟨sender, hresume⟩ := resume_of_ok hopen hok
    rw [step_resume hopen hresume]
    intro found hfound
    rw [lookup_setSender, if_pos rfl] at hfound
    cases hfound
    exact Sender.numbered_of_resume hresume
  | step huse hleaves ih =>
    exact inStep_step (ready_of_reached (reached_of_inUse huse)) ih hleaves

theorem run_recover (hready : session.Ready)
    (hresume : Sender.resume session.store hash = .ok sender) (name : String) (now later : UInt64) :
    session.run [(now, .reopen), (later, .senderResume name hash)] =
      ([.ok (.control .done), .ok (.hash hash)], { session with senders := [(name, sender)] }) := by
  have hreopen : session.step now .reopen =
      (.ok (.control .done), { session with senders := [] }) :=
    reopen_of_onFile (onFile_of_ready hready)
  have hresumed : Session.step { session with senders := [] } later (.senderResume name hash) =
      (.ok (.hash hash), { session with senders := [(name, sender)] }) :=
    step_resume hready.isOpen hresume
  rw [run_cons, hreopen, run_cons, hresumed, run_nil]

theorem within_recovered (hlookup : session.senders.lookup name = some sender) :
    Within { session with senders := [(name, sender)] } session := by
  refine ⟨session.senders, rfl, fun other found hfound => ?_⟩
  rw [lookup_cons_eq] at hfound
  by_cases hother : other = name
  · subst hother
    rw [if_pos rfl] at hfound
    exact hlookup.trans hfound
  · rw [if_neg hother] at hfound
    cases hfound

theorem spares_recovered (hlookup : session.senders.lookup name = some sender)
    (honly : ∀ other found, session.senders.lookup other = some found → other = name)
    (steps : List (UInt64 × Op)) :
    Spares { session with senders := [(name, sender)] } session steps := by
  refine spares_of_within (within_recovered hlookup) ⟨_, rfl, fun other found hfound => ?_⟩ steps
  cases honly other found hfound
  rw [lookup_cons_eq, if_pos rfl]
  exact hlookup.symm.trans hfound

theorem resume_inUse (huse : InUse hash name session)
    (hlookup : session.senders.lookup name = some sender)
    (hget : session.store.get? hash = .ok (some payment)) (hinFlight : payment.status = .inFlight)
    (hnumberable : payment.Numberable) : Sender.resume session.store hash = .ok sender := by
  obtain ⟨rfl, hnumbered⟩ := inStep_of_inUse huse sender hlookup
  have hundo := (ready_of_reached (reached_of_inUse huse)).tidy name sender hlookup
  rw [Sender.resume_of_inFlight hget hinFlight, ← hnumbered payment hget hnumberable, ← hundo]

/-- What is on the disk when a crash comes in the middle of a launch: the registration, and whatever
was done to payments since. -/
theorem ready_launching (hready : session.Ready) {info : AttemptInfo} {registered : Store}
    (hregister : session.store.register hash info = .ok (payment, registered))
    (ops : List Lifecycle.Op) :
    Ready { session with store := registered.ran ops } where
  persistent := hready.persistent
  isOpen := hready.isOpen
  opened := by
    refine Store.opened_congr ?_ hready.opened
    obtain ⟨_, _, _, _, rfl⟩ := Store.update_eq_ok_iff.1 hregister
    exact Store.version_ran _ ops
  consistent := by
    obtain ⟨_, _, _, hhash, rfl⟩ := Store.update_eq_ok_iff.1 hregister
    exact Store.consistent_ran (Store.consistent_put hready.consistent hhash) ops
  tidy := hready.tidy

/-- A crash between two steps is not noticed: the sender that was in use comes back as it was, and
steps that work with no other lost sender get the same answers and leave the same store. If there
was no other sender, those are all steps. After a crash in the middle of a launch the numbers go on
above the registered attempt. However attempts were registered, a sender that takes up a payment
gets its next attempt registered. -/
theorem resume_invisible :
    (∀ (session : Session) (hash : PaymentHash) (name : String) (sender : Sender)
      (payment : Payment), InUse hash name session →
      session.senders.lookup name = some sender →
      session.store.get? hash = .ok (some payment) → payment.status = .inFlight →
      payment.Numberable → ∀ now later,
      let recovered : Session := { session with senders := [(name, sender)] }
      session.run [(now, .reopen), (later, .senderResume name hash)] =
        ([.ok (.control .done), .ok (.hash hash)], recovered) ∧
      (∀ steps, recovered.Spares session steps →
        (recovered.run steps).1 = (session.run steps).1 ∧
          (recovered.run steps).2.store = (session.run steps).2.store) ∧
      ((∀ other found, session.senders.lookup other = some found → other = name) →
        ∀ steps, recovered.Spares session steps)) ∧
    (∀ (session : Session) (name : String) (sender : Sender), session.Reached →
      session.senders.lookup name = some sender → ∀ now route sessionKey payment registered,
      session.store.register sender.hash ⟨sender.nextId, sessionKey, route, now⟩ =
        .ok (payment, registered) →
      ∀ ops, (∀ info : CreationInfo, info.hash = sender.hash →
        ¬ registered.Carries ops (.start info)) →
      ∀ left, (registered.ran ops).get? sender.hash = .ok (some left) →
      left.status = .inFlight → left.Numberable → ∀ other crash later,
      ∃ resumed, run { session with store := registered.ran ops }
          [(crash, .reopen), (later, .senderResume other sender.hash)] =
        ([.ok (.control .done), .ok (.hash sender.hash)],
          { session with store := registered.ran ops, senders := [(other, resumed)] }) ∧
        sender.nextId < resumed.nextId) ∧
    ∀ (session : Session) (hash : PaymentHash) (payment : Payment), session.Reached →
      session.store.get? hash = .ok (some payment) → payment.status = .inFlight →
      payment.Numberable → ∀ name now,
      ∃ resumed, session.step now (.senderResume name hash) =
          (.ok (.hash hash), session.setSender name resumed) ∧
        (∀ attempt ∈ payment.attempts, attempt.id < resumed.nextId) ∧
        ∀ later ended network route sessionKey,
          (resumed.launch session.store later ended network route sessionKey).handedOff =
            some ⟨resumed.nextId, sessionKey, route, later⟩ := by
  refine ⟨?between, ?inside, ?above⟩
  case between =>
    intro session hash name sender payment huse hlookup hget hinFlight hnumberable now later
    have hresume := resume_inUse huse hlookup hget hinFlight hnumberable
    have hready := ready_of_reached (reached_of_inUse huse)
    refine ⟨run_recover hready hresume name now later, fun steps hspares => ?_,
      spares_recovered hlookup⟩
    obtain ⟨hanswers, _, hfinal, _⟩ := within_run (within_recovered hlookup) hspares
    exact ⟨hanswers, (congrArg Session.store hfinal).symm⟩
  case inside =>
    intro session name sender hreached hlookup now route sessionKey payment registered hregister
      ops hstart left hget hinFlight hnumberable other crash later
    have hready := ready_launching (ready_of_reached hreached) hregister ops
    have hresume := Sender.resume_of_inFlight hget hinFlight
    exact ⟨_, run_recover hready hresume other crash later,
      Sender.lt_nextId_of_registered hregister hstart hget hnumberable⟩
  case above =>
    intro session hash payment hreached hget hinFlight hnumberable name now
    have hready := ready_of_reached hreached
    have hresume := Sender.resume_of_inFlight hget hinFlight
    obtain ⟨current, hcurrent, hhash⟩ := hready.consistent hash
    cases hget.symm.trans hcurrent
    exact ⟨_, step_resume hready.isOpen hresume, fun attempt => Payment.id_lt_nextId hnumberable,
      Sender.handedOff_of_resumed hget (hhash payment rfl) hinFlight hnumberable⟩

end Session

namespace Sample

open Session

def peer : NodeAddress := ⟨route.source, .none, .v4 ⟨127, 0, 0, 1⟩ 9735⟩

def nodeUp : Session := .new true

def nodeStarted : Session :=
  { nodeUp with store := nodeUp.store.put hash (.fresh creation) }.setSender "first"
    ⟨hash, 0, .empty⟩

def nodeSent : Session :=
  { nodeStarted.setSender "first" ⟨hash, 1, .empty⟩ with
    store := nodeStarted.store.put hash pending,
    dispatches := [⟨hash, 0, peer, route.hops.length⟩] }

theorem start_nodeUp : Sender.start nodeUp.store creation =
    .ok (⟨hash, 0, .empty⟩, nodeUp.store.put hash (.fresh creation)) := by
  have hupdate : nodeUp.store.update creation.hash (Lifecycle.start creation) =
      .ok (.fresh creation, nodeUp.store.put hash (.fresh creation)) :=
    Store.update_ok _ _ _ none _ rfl rfl rfl
  rw [Sender.start, Store.start, hupdate]
  rfl

theorem step_nodeUp : nodeUp.step 1700000000 (.senderStart "first" creation) =
    (.ok (.hash hash), nodeStarted) := step_start rfl start_nodeUp

theorem nodeStarted_reached : nodeStarted.Reached := by
  have hreached : (nodeUp.step 1700000000 (.senderStart "first" creation)).2.Reached :=
    .step .new _ id
  rwa [step_nodeUp] at hreached

theorem lookup_nodeStarted : nodeStarted.senders.lookup "first" = some ⟨hash, 0, .empty⟩ := by
  rw [nodeStarted, lookup_setSender, if_pos rfl]

theorem get?_nodeStarted : nodeStarted.store.get? hash = .ok (some (.fresh creation)) :=
  (Store.get?_put ..).trans (if_pos rfl)

theorem register_nodeStarted : nodeStarted.store.register hash attempt =
    .ok (pending, nodeStarted.store.put hash pending) :=
  Store.update_ok _ _ _ _ _ get?_nodeStarted
    ((register_ok_iff hash attempt _ pending).2 change_register) rfl

theorem inUse_nodeStarted : InUse hash "first" nodeStarted := by
  have huse : InUse hash "first" (nodeUp.step 1700000000 (.senderStart "first" creation)).2 :=
    .started .new rfl (congrArg Prod.fst step_nodeUp)
  rwa [step_nodeUp] at huse

theorem transport_nodeStarted : nodeStarted.transport = .quiet := rfl

theorem performed_nodeStarted :
    nodeStarted.performed 1700000001
        (.senderLaunch "first" route attempt.sessionKey peer 1700000002) =
      [.register hash attempt] := by
  let sender : Sender := ⟨hash, 0, .empty⟩
  have hinfo : attempt = ⟨sender.nextId, attempt.sessionKey, route, 1700000001⟩ := rfl
  have hops : (Transport.quiet.script attempt).ops = [] := rfl
  have hverdict : (Transport.quiet.script attempt).verdict = .ok () := rfl
  rw [performed, lookup_nodeStarted, transport_nodeStarted]
  dsimp only
  rw [Sender.performed_of_registered hinfo register_nodeStarted, hops, hverdict, List.nil_append]
  rfl

theorem leaves_nodeStarted : nodeStarted.LeavesTo hash "first" 1700000001
    (.senderLaunch "first" route attempt.sessionKey peer 1700000002) where
  no_edit := id
  no_put := nofun
  no_start := by
    intro info _ hcarries
    rw [performed_nodeStarted] at hcarries
    cases List.mem_singleton.1 (Store.mem_of_carries hcarries)
  own_register := by
    intro before info later hperformed _
    rw [performed_nodeStarted] at hperformed
    cases before with
    | nil => exact ⟨rfl, _, _, _, _, rfl⟩
    | cons op before => simp at hperformed
  name_kept := by rintro (⟨_, ⟨⟩⟩ | ⟨_, ⟨⟩⟩)

theorem launch_nodeStarted : Sender.launch ⟨hash, 0, .empty⟩ nodeStarted.store 1700000001
    1700000002 nodeStarted.transport.script route attempt.sessionKey =
      ⟨.ok 0, ⟨hash, 1, .empty⟩, nodeStarted.store.put hash pending, some attempt, []⟩ := by
  let sender : Sender := ⟨hash, 0, .empty⟩
  have hundo : sender.undo = .empty := rfl
  have hinfo : attempt = ⟨sender.nextId, attempt.sessionKey, route, 1700000001⟩ := rfl
  rw [Sender.launch_of_registered hundo hinfo register_nodeStarted, transport_nodeStarted]
  rfl

theorem step_nodeStarted : nodeStarted.step 1700000001
    (.senderLaunch "first" route attempt.sessionKey peer 1700000002) = (.ok (.id 0), nodeSent) := by
  rw [step_senderLaunch rfl lookup_nodeStarted, launch, launch_nodeStarted]
  rfl

theorem inUse_nodeSent : InUse hash "first" nodeSent := by
  have huse := InUse.step inUse_nodeStarted leaves_nodeStarted
  rwa [step_nodeStarted] at huse

theorem lookup_nodeSent : nodeSent.senders.lookup "first" = some ⟨hash, 1, .empty⟩ := by
  have hset := lookup_setSender nodeStarted "first" "first" ⟨hash, 1, .empty⟩
  rwa [if_pos rfl] at hset

theorem get?_nodeSent : nodeSent.store.get? hash = .ok (some pending) :=
  (Store.get?_put ..).trans (if_pos rfl)

def nodeCut : Store := nodeStarted.store.put hash pending

def nodeBack : Session := { nodeSent with senders := [("first", ⟨hash, 1, .empty⟩)] }

def secondSend : UInt64 × Session.Op :=
  (1700000004, .senderLaunch "first" route attempt.sessionKey peer 1700000005)

theorem only_nodeSent (other : String) (found : Sender)
    (hfound : nodeSent.senders.lookup other = some found) : other = "first" := by
  have hsenders : nodeSent.senders = [("first", ⟨hash, 1, .empty⟩)] := rfl
  rw [hsenders, lookup_cons_eq] at hfound
  by_contra hother
  rw [if_neg hother] at hfound
  cases hfound

theorem get?_nodeCut : nodeCut.get? hash = .ok (some pending) :=
  (Store.get?_put ..).trans (if_pos rfl)

theorem inFlight_pending : pending.status = .inFlight := by decide

theorem numberable_pending : pending.Numberable := by
  intro attempt hmem
  cases List.mem_singleton.1 hmem
  decide

end Sample

namespace Session

theorem resume_invisible_sent :
    (Sample.nodeSent.run [(1700000002, .reopen), (1700000003, .senderResume "first" Sample.hash)] =
        ([.ok (.control .done), .ok (.hash Sample.hash)], Sample.nodeBack) ∧
      (Sample.nodeBack.run [Sample.secondSend]).1 = (Sample.nodeSent.run [Sample.secondSend]).1 ∧
      (Sample.nodeBack.run [Sample.secondSend]).2.store =
        (Sample.nodeSent.run [Sample.secondSend]).2.store) ∧
    (∃ resumed : Sender, run { Sample.nodeStarted with store := Sample.nodeCut }
        [(1700000002, .reopen), (1700000003, .senderResume "again" Sample.hash)] =
      ([.ok (.control .done), .ok (.hash Sample.hash)],
        { Sample.nodeStarted with store := Sample.nodeCut, senders := [("again", resumed)] }) ∧
      0 < resumed.nextId) ∧
    ∃ resumed, Sample.nodeSent.step 1700000002 (.senderResume "again" Sample.hash) =
        (.ok (.hash Sample.hash), Sample.nodeSent.setSender "again" resumed) ∧
      Sample.attempt.id < resumed.nextId := by
  obtain ⟨hbetween, hinside, habove⟩ := resume_invisible
  refine ⟨?_, ?_, ?_⟩
  · obtain ⟨hrun, hcontinued, hspares⟩ := hbetween Sample.nodeSent Sample.hash "first"
      ⟨Sample.hash, 1, .empty⟩ Sample.pending Sample.inUse_nodeSent Sample.lookup_nodeSent
      Sample.get?_nodeSent Sample.inFlight_pending Sample.numberable_pending 1700000002 1700000003
    have hsecond := hcontinued [Sample.secondSend] (hspares Sample.only_nodeSent _)
    dsimp only [Sample.nodeBack]
    exact ⟨hrun, hsecond⟩
  · have hcut := hinside Sample.nodeStarted "first" ⟨Sample.hash, 0, .empty⟩
      Sample.nodeStarted_reached Sample.lookup_nodeStarted 1700000001 Sample.route
      Sample.attempt.sessionKey Sample.pending Sample.nodeCut Sample.register_nodeStarted []
      (fun _ _ hcarries => nomatch Store.mem_of_carries hcarries)
    rw [Store.ran_nil] at hcut
    exact hcut Sample.pending Sample.get?_nodeCut Sample.inFlight_pending
      Sample.numberable_pending "again" 1700000002 1700000003
  · obtain ⟨resumed, hstep, hlt, _⟩ := habove Sample.nodeSent Sample.hash Sample.pending
      (reached_of_inUse Sample.inUse_nodeSent) Sample.get?_nodeSent Sample.inFlight_pending
      Sample.numberable_pending "again" 1700000002
    exact ⟨resumed, hstep, hlt ⟨Sample.attempt, .pending⟩ (List.mem_singleton_self _)⟩

end Session

end Lightpay
