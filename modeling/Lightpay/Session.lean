import Lightpay.Sender

/-!
A session of a node: one store, the senders that work on it under names, and a network to hand
attempts to. The store may be closed, changed on disk and opened again, and all senders are lost
with it. A memory store comes back empty.
-/

namespace Lightpay

structure Transport where
  ops : List Lifecycle.Op
  /-- Refuse attempts whose hops could not read their payloads. -/
  validates : Bool
  refusal : Option String
deriving DecidableEq

structure Dispatch where
  hash : PaymentHash
  id : UInt64
  peer : NodeAddress
  hops : Nat
deriving DecidableEq

structure Session where
  /-- Whether the store outlives its closing. -/
  persistent : Bool
  store : Store
  isOpen : Bool
  senders : List (String × Sender)
  transport : Transport
  dispatches : List Dispatch
  answers : List (Except Error Lifecycle.Answer)

namespace Transport

def quiet : Transport := ⟨[], false, none⟩

/-- The first payload of a route that its hop could not read. -/
def checkPayloads (route : Route) : Except Error Unit := do
  let payloads ← route.payloads
  for payload in payloads do
    let _ ← (Onion.Payload.decode payload).mapError .payload

def script (transport : Transport) (info : AttemptInfo) : Script where
  ops := transport.ops
  verdict := do
    if transport.validates then checkPayloads info.route
    match transport.refusal with
    | some text => throw (.dispatch text)
    | none => return ()

end Transport

namespace Session

inductive Op where
  | control (op : Lifecycle.Op)
  | put (hash : PaymentHash) (payment : Payment)
  | reject (hash : PaymentHash) (text : String)
  | get (hash : PaymentHash)
  | removeAll (status : Status)
  /-- Writes to the closed store, or removes what stands there. -/
  | writeText (hash : PaymentHash) (text : Option String)
  | writeVersion (text : Option String)
  | reopen
  | undo (action : FailUndispatched)
  | setTransport (transport : Transport)
  | dispatched
  | senderStart (name : String) (info : CreationInfo)
  | senderResume (name : String) (hash : PaymentHash)
  /-- A launch whose hand-off ends at a time of its own. -/
  | senderLaunch (name : String) (route : Route) (sessionKey : SecretKey) (peer : NodeAddress)
    (ended : UInt64)
  | senderFailAttempt (name : String) (id : UInt64) (failure : AttemptFailure)
  | senderPayment (name : String)
  | senderSettle (name : String) (id : UInt64) (preimage : Preimage)
  | senderGiveUp (name : String) (reason : GiveUpReason)

inductive Fault where
  | closed
  | noSender (name : String)
  | opening (error : Store.OpenError)
  | refused (error : Error)
deriving DecidableEq

inductive Answer where
  | control (answer : Lifecycle.Answer)
  | found (payment : Option Payment)
  /-- Whether the transaction was given a payment, if it ran at all, and how it ended. -/
  | rejected (seen : Option Bool) (error : Error)
  | hash (hash : PaymentHash)
  | id (id : UInt64)
  | settled (payment : Payment) (preimage : Option Preimage)
  | givenUp (payment : Payment) (reason : Option GiveUpReason)
  | dispatched (dispatches : List Dispatch) (answers : List (Except Error Lifecycle.Answer))

/-- Opens the store as it stands; if that fails it stays closed. -/
def openStore (session : Session) : Except Fault Answer × Session :=
  match session.store.opened with
  | .ok store => (.ok (.control .done), { session with store, isOpen := true })
  | .error e => (.error (.opening e), { session with isOpen := false })

def new (persistent : Bool) : Session :=
  (openStore ⟨persistent, .empty, false, [], .quiet, [], []⟩).2

def reopen (session : Session) : Except Fault Answer × Session :=
  openStore
    { session with senders := [], store := if session.persistent then session.store else .empty }

def editStore (session : Session) (change : Store → Store) : Except Fault Answer × Session :=
  let closed := { session with senders := [], isOpen := false, store := change session.store }
  if session.isOpen then closed.openStore else (.ok (.control .done), closed)

def commit (session : Session) (result : Except Error (α × Store)) (answer : α → Answer) :
    Except Fault Answer × Session :=
  match result with
  | .ok (a, store) => (.ok (answer a), { session with store })
  | .error e => (.error (.refused e), session)

def withSender (session : Session) (name : String)
    (use : Sender → Except Fault Answer × Session) : Except Fault Answer × Session :=
  match session.senders.lookup name with
  | some sender => use sender
  | none => (.error (.noSender name), session)

def dropSender (session : Session) (name : String) : Session :=
  { session with senders := session.senders.filter (·.1 ≠ name) }

def setSender (session : Session) (name : String) (sender : Sender) : Session :=
  { session with senders := (name, sender) :: session.senders.filter (·.1 ≠ name) }

def launch (session : Session) (now : UInt64) (name : String) (route : Route)
    (sessionKey : SecretKey) (peer : NodeAddress) (ended : UInt64) (sender : Sender) :
    Except Fault Answer × Session :=
  let launch := sender.launch session.store now ended session.transport.script route sessionKey
  let session := { session.setSender name launch.sender with
    store := launch.store, answers := session.answers ++ launch.answers }
  match launch.result with
  | .error e => (.error (.refused e), session)
  | .ok id =>
    (.ok (.id id), { session with
      dispatches := session.dispatches ++ [⟨sender.hash, id, peer, route.hops.length⟩] })

def rejected (store : Store) (hash : PaymentHash) (text : String) : Answer :=
  match store.get? hash with
  | .error e => .rejected none e
  | .ok current => .rejected (some current.isSome) (.custom text)

def stepOpen (session : Session) (now : UInt64) : Op → Except Fault Answer × Session
  | .control op => session.commit (session.store.apply op) .control
  | .put hash payment =>
    session.commit (session.store.update hash fun _ => .ok payment) fun p =>
      .control (.payment p)
  | .reject hash text => (.ok (rejected session.store hash text), session)
  | .get hash =>
    session.commit ((session.store.get? hash).map fun p => (p, session.store)) .found
  | .removeAll status =>
    session.commit (session.store.remove (·.status = status)) fun n => .control (.count n)
  | .undo action =>
    let (result, store) := action.run now session.store
    session.commit (result.map fun () => ((), store)) fun () => .control .done
  | .senderStart name info =>
    match Sender.start session.store info with
    | .ok (sender, store) =>
      (.ok (.hash info.hash), { session with store }.setSender name sender)
    | .error e => (.error (.refused e), session)
  | .senderResume name hash =>
    match Sender.resume session.store hash with
    | .ok sender => (.ok (.hash hash), session.setSender name sender)
    | .error e => (.error (.refused e), session)
  | .senderLaunch name route sessionKey peer ended =>
    session.withSender name (session.launch now name route sessionKey peer ended)
  | .senderFailAttempt name id failure =>
    session.withSender name fun sender =>
      session.commit (sender.failAttempt session.store id failure) fun p => .control (.payment p)
  | .senderPayment name =>
    session.withSender name fun sender =>
      session.commit ((sender.payment session.store).map fun p => (p, session.store)) fun p =>
        .control (.payment p)
  | .senderSettle name id preimage =>
    session.withSender name fun sender =>
      (session.dropSender name).commit (sender.settle session.store now id preimage) fun p =>
        .settled p p.preimage?
  | .senderGiveUp name reason =>
    session.withSender name fun sender =>
      (session.dropSender name).commit (sender.giveUp session.store reason) fun p =>
        .givenUp p p.giveUpReason
  | _ => (.error .closed, session)

def step (session : Session) (now : UInt64) : Op → Except Fault Answer × Session
  | .setTransport transport => (.ok (.control .done), { session with transport })
  | .dispatched =>
    (.ok (.dispatched session.dispatches session.answers), { session with answers := [] })
  | .reopen => session.reopen
  | .writeText hash text =>
    session.editStore fun store =>
      { store with payments :=
          match text with
          | some text => store.payments.insert hash text
          | none => store.payments.erase hash }
  | .writeVersion version => session.editStore fun store => { store with version }
  | op => if session.isOpen then session.stepOpen now op else (.error .closed, session)

def run (session : Session) : List (UInt64 × Op) → List (Except Fault Answer) × Session
  | [] => ([], session)
  | (now, op) :: steps =>
    let (answer, session) := session.step now op
    let (answers, session) := session.run steps
    (answer :: answers, session)

def Op.Edits : Op → Prop
  | .writeText .. | .writeVersion _ => True
  | _ => False

/-- Reached from a new session over a file by steps that do not edit it from outside. -/
inductive Reached : Session → Prop
  | new : Reached (.new true)
  | step {session : Session} (h : Reached session) (now : UInt64) {op : Op} (hedits : ¬ op.Edits) :
    Reached (session.step now op).2

/-- What a step performs on payments, refused operations included. -/
def performed (session : Session) (now : UInt64) : Op → List Lifecycle.Op
  | .control op => [op]
  | .undo action => [action.op now]
  | .senderStart _ info => [.start info]
  | .senderLaunch name route sessionKey _ ended =>
    match session.senders.lookup name with
    | none => []
    | some sender =>
      sender.performed session.store now ended session.transport.script route sessionKey
  | .senderFailAttempt name id failure =>
    match session.senders.lookup name with
    | none => []
    | some sender => [.failAttempt sender.hash id failure]
  | .senderSettle name id preimage =>
    match session.senders.lookup name with
    | none => []
    | some sender => [.settle sender.hash id ⟨preimage, now⟩]
  | .senderGiveUp name reason =>
    match session.senders.lookup name with
    | none => []
    | some sender => [.giveUp sender.hash reason]
  | _ => []

end Session

end Lightpay
