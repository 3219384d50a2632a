import Lightpay.Proofs.Lifecycle.Automaton
import Lightpay.Proofs.Result
import Lightpay.Proofs.Sender.World

/-! What a launch leaves behind, whatever the network does to the store meanwhile. Between its
operations a sender has nothing to undo, so a failing launch undoes its own registration and no
earlier one. -/

namespace Lightpay

open Lifecycle

theorem Sender.undo_resume {store : Store} {hash : PaymentHash} {sender : Sender}
    (h : Sender.resume store hash = .ok sender) : sender.undo = .empty := by
  obtain ⟨payment, _, h⟩ := bind_eq_ok_iff.1 h
  split at h
  · cases h
  · cases h
  · cases h
    rfl
  · cases h
    rfl

/-- All there is to undo is the registration of the attempt that is being handed over. -/
def Worker.Tidy (worker : Worker) : Prop :=
  worker.sender.undo.actions = (worker.stage.attempt?.map
    fun info => (⟨worker.sender.hash, info.id⟩ : FailUndispatched)).toList

namespace World

def Tidy (world : World) : Prop :=
  ∀ name worker, world.workers name = some worker → worker.Tidy

variable {world : World} {name : String} {sender : Sender}

theorem tidy_of_idle? (htidy : world.Tidy) (h : world.idle? name = some sender) :
    sender.undo = .empty := by
  have hactions : sender.undo.actions = [] := htidy name _ (workers_of_idle? h)
  obtain ⟨hash, nextId, ⟨actions⟩⟩ := sender
  cases hactions
  rfl

theorem tidy_step (htidy : world.Tidy) (move : Move) : (world.step move).Tidy := by
  intro name worker hworker
  cases origin_step hworker with
  | kept h => exact htidy name worker h
  | started _ h =>
    obtain ⟨store, _, hstarted⟩ := map_eq_ok_iff.1 h
    cases hstarted
    rfl
  | resumed _ h =>
    rw [Worker.Tidy, Sender.undo_resume h]
    rfl
  | registered _ hidle h =>
    obtain ⟨rfl, rfl, _⟩ := register_eq_ok_iff.1 h
    -- The sender was idle, so the new registration is all there is to undo.
    rw [Worker.Tidy, tidy_of_idle? htidy hidle]
    rfl
  | @handedOff sender info _ h =>
    have hwaiting : Worker.Tidy ⟨sender, .registered info⟩ := htidy name _ h
    exact hwaiting
  | @concluded _ _ _ verdict => cases verdict <;> rfl

theorem tidy_of_reachable (hreachable : world.Reachable) : world.Tidy := by
  obtain ⟨version, moves, rfl⟩ := hreachable
  have hblank : (blank version).Tidy := by
    intro name worker hworker
    cases hworker
  generalize blank version = world at hblank ⊢
  induction moves generalizing world with
  | nil => exact hblank
  | cons move moves ih => exact ih _ (tidy_step hblank move)

theorem store_reachable (hreachable : world.Reachable) : world.store.Reachable := by
  obtain ⟨version, moves, rfl⟩ := hreachable
  exact ⟨version, (blank version).history moves, store_run (blank version) moves⟩

end World

namespace Store

variable {store registered left : Store} {hash : PaymentHash} {id : UInt64} {payment : Payment}

/-- The attempt that did not leave has failed if it was still pending, and nothing else changed. -/
def Withdrawn (left reached : Store) (hash : PaymentHash) (id now : UInt64) : Prop :=
  (∀ payment info, left.get? hash = .ok (some payment) → ⟨info, .pending⟩ ∈ payment.attempts →
    info.id = id → reached = left.put hash { payment with
      attempts := payment.attempts.map (·.recorded id (.failed ⟨.internalError, now, none⟩)) }) ∧
  ((∀ payment info, left.get? hash = .ok (some payment) → ⟨info, .pending⟩ ∈ payment.attempts →
    info.id ≠ id) → reached = left)

theorem withdrawn_step (hsound : left.Sound) (hash : PaymentHash) (id now : UInt64) :
    left.Withdrawn (left.step (.failAttempt hash id ⟨.internalError, now, none⟩)).2
      hash id now := by
  constructor
  · rintro payment info hget hmem rfl
    have hids := (hsound.payments hash payment hget).distinct_ids
    have hpending : payment.attempt? info.id = some ⟨info, .pending⟩ :=
      Payment.attempt?_of_mem hids hmem
    rw [step_change hsound.consistent hget (.failAttempt hpending),
      ← Payment.attempts_setOutcome hids]
    rfl
  · intro hresolved
    apply refused_unchanged
    obtain ⟨current, hget, _⟩ := hsound.consistent hash
    rw [accepts_iff hsound.consistent rfl hget]
    rintro ⟨updated, h⟩
    cases h with
    | @failAttempt _ _ payment info hpending =>
      exact hresolved payment info hget (Payment.mem_of_attempt? hpending)
        (Payment.id_of_attempt? hpending)

theorem sound_register {info : AttemptInfo} (hsound : store.Sound)
    (h : store.register hash info = .ok (payment, registered)) : registered.Sound := by
  have hstep := sound_step hsound (.register hash info)
  rwa [step, apply, h] at hstep

end Store

namespace Sender

variable {sender : Sender} {store registered : Store} {payment : Payment} {now later : UInt64}
  {network : AttemptInfo → Script} {route : Route} {sessionKey : SecretKey}

theorem launch_of_refused {e : Error}
    (h : store.register sender.hash ⟨sender.nextId, sessionKey, route, now⟩ = .error e) :
    sender.launch store now later network route sessionKey =
      ⟨.error e, sender, store, none, []⟩ := by
  rw [launch, register, h]

theorem launch_of_registered {info : AttemptInfo} (hundo : sender.undo = .empty)
    (hinfo : info = ⟨sender.nextId, sessionKey, route, now⟩)
    (h : store.register sender.hash info = .ok (payment, registered)) :
    sender.launch store now later network route sessionKey =
      ⟨(network info).verdict.map fun () => sender.nextId,
        ⟨sender.hash, sender.nextId + 1, .empty⟩,
        (registered.ran (network info).ops).ran (match (network info).verdict with
          | .ok () => []
          | .error _ => [.failAttempt sender.hash sender.nextId ⟨.internalError, later, none⟩]),
        some info, (registered.run (network info).ops).1⟩ := by
  subst hinfo
  rw [launch, register, h]
  dsimp only
  cases (network ⟨sender.nextId, sessionKey, route, now⟩).verdict with
  | ok => rfl
  | error e =>
    have hundone := World.undo_runAll later [⟨sender.hash, sender.nextId⟩]
      (registered.ran (network ⟨sender.nextId, sessionKey, route, now⟩).ops)
    rw [conclude, hundo]
    exact congrArg (Launch.mk _ _ · _ _) hundone

end Sender

/-- Between operations a sender of a reachable world has nothing to undo. Such a sender, launching
over a reachable store, changes nothing if the registration is refused; else the store is left as
the network left it, except for the attempt itself if its hand-off failed. -/
theorem Sender.launch_consistent :
    (∀ world : World, world.Reachable → world.store.Reachable ∧
      ∀ name sender, world.idle? name = some sender → sender.undo = .empty) ∧
    ∀ store : Store, store.Reachable → ∀ sender : Sender, sender.undo = .empty →
      sender.nextId.toNat < UInt64.size - 1 →
      ∀ (now later : UInt64) (network : AttemptInfo → Script) (route : Route)
        (sessionKey : SecretKey),
      let info : AttemptInfo := ⟨sender.nextId, sessionKey, route, now⟩
      let launched := sender.launch store now later network route sessionKey
      (∀ e, store.register sender.hash info = .error e →
        launched = ⟨.error e, sender, store, none, []⟩) ∧
      ∀ payment registered, store.register sender.hash info = .ok (payment, registered) →
        launched.handedOff = some info ∧ launched.sender.hash = sender.hash ∧
        launched.sender.nextId.toNat = sender.nextId.toNat + 1 ∧ launched.sender.undo = .empty ∧
        ((network info).verdict = .ok () → launched.result = .ok sender.nextId ∧
          launched.store = registered.ran (network info).ops) ∧
        ∀ e, (network info).verdict = .error e → launched.result = .error e ∧
          (registered.ran (network info).ops).Withdrawn launched.store sender.hash
            sender.nextId later := by
  refine ⟨fun world hreachable => ⟨World.store_reachable hreachable, fun name sender =>
    World.tidy_of_idle? (World.tidy_of_reachable hreachable)⟩, ?_⟩
  intro store hreachable sender hundo hbound now later network route sessionKey info launched
  refine ⟨fun e => launch_of_refused, fun payment registered hregister => ?_⟩
  have hlaunched : launched = _ := launch_of_registered hundo rfl hregister
  have hnext : (sender.nextId + 1).toNat = sender.nextId.toNat + 1 := by
    rw [UInt64.toNat_add]
    exact Nat.mod_eq_of_lt (Nat.add_lt_of_lt_sub hbound)
  rw [hlaunched]
  refine ⟨rfl, rfl, hnext, rfl, fun hverdict => ?_, fun e hverdict => ?_⟩
  · rw [hverdict]
    exact ⟨rfl, rfl⟩
  · rw [hverdict]
    have hleft := Store.sound_ran (Store.sound_register (Store.sound_of_reachable hreachable)
      hregister) (network info).ops
    exact ⟨rfl, Store.withdrawn_step hleft sender.hash sender.nextId later⟩

namespace Sample

def offline (_ : AttemptInfo) : Script := ⟨[], .error (.dispatch "offline")⟩

def unsent : Launch :=
  Sender.launch ⟨hash, 0, .empty⟩ begun.store 1700000001 1700000002 offline route attempt.sessionKey

end Sample

theorem Sender.launch_consistent_offline :
    Sample.unsent.result = .error (.dispatch "offline") ∧
      Sample.unsent.store.get? Sample.hash = .ok (some ⟨Sample.creation,
        [⟨Sample.attempt, .failed ⟨.internalError, 1700000002, none⟩⟩], none, none⟩) := by
  have hstore := World.store_reachable Sample.begun_reachable
  obtain ⟨_, hlaunched⟩ := launch_consistent.2 Sample.begun.store hstore
    ⟨Sample.hash, 0, .empty⟩ rfl (by decide) 1700000001 1700000002 Sample.offline Sample.route
    Sample.attempt.sessionKey
  obtain ⟨_, _, _, _, _, hrefused⟩ := hlaunched Sample.pending _ Sample.register_begun
  obtain ⟨hresult, hpending, _⟩ := hrefused (.dispatch "offline") rfl
  refine ⟨hresult, ?_⟩
  have hget : (Sample.begun.store.put Sample.hash Sample.pending).get? Sample.hash =
      .ok (some Sample.pending) := by
    rw [Store.get?_put, if_pos rfl]
  rw [Sample.unsent, hpending Sample.pending Sample.attempt hget (List.mem_singleton_self _) rfl,
    Store.get?_put, if_pos rfl]
  rfl

end Lightpay
