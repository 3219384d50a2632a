import Lightpay.Proofs.Sender.World
import Mathlib.Data.List.Induction

/-! Between its registration and its hand-off an attempt waits for its sender, and others may do to
the payment what they like. Every hand-off has a registration of its own behind it. -/

namespace Lightpay

namespace World

variable {world : World} {before before' waiting waiting' later : List Move} {move move' : Move}
  {name again : String} {hash : PaymentHash} {info other : AttemptInfo}

/-- The move registers the attempt, and from then on the attempt waits for the sender with the name
to hand it over. -/
structure Waits (world : World) (before : List Move) (move : Move) (waiting : List Move)
    (name : String) (hash : PaymentHash) (info : AttemptInfo) : Prop where
  own : ∃ now route sessionKey, move = .register name now route sessionKey
  registered : (world.run before).registered? move = some (hash, info)
  unsent : ∀ passed rest, waiting = passed ++ rest →
    (world.run (before ++ move :: passed)).dispatched? (.handOff name) = some (hash, info)

/-- On the way through the moves the hash is started. -/
def Starts (world : World) (moves : List Move) (hash : PaymentHash) : Prop :=
  ∃ creation : CreationInfo, creation.hash = hash ∧
    world.store.Carries (world.history moves) (.start creation)

/-- Only by its own registration does a sender come to have an attempt to hand over. -/
theorem dispatched?_step {sent : PaymentHash × AttemptInfo}
    (h : (world.step move).dispatched? (.handOff name) = some sent) :
    world.dispatched? (.handOff name) = some sent ∨
      (∃ now route sessionKey, move = .register name now route sessionKey) ∧
        world.registered? move = some sent := by
  obtain ⟨worker, hworker, hawaiting⟩ := Option.bind_eq_some_iff.1 h
  cases origin_step hworker with
  | kept hkept => exact .inl (Option.bind_eq_some_iff.2 ⟨worker, hkept, hawaiting⟩)
  | registered hmove hidle hregister =>
    subst hmove
    refine .inr ⟨⟨_, _, _, rfl⟩, ?_⟩
    obtain ⟨_, hsender, _⟩ := register_eq_ok_iff.1 hregister
    rw [registered?, hidle]
    dsimp only
    rw [hregister]
    exact hsender ▸ hawaiting
  | started | resumed | handedOff | concluded => cases hawaiting

theorem dispatched?_twice (world : World) (name : String) :
    (world.step (.handOff name)).dispatched? (.handOff name) = none := by
  rw [step]
  split
  · rw [dispatched?_set, if_pos rfl]
    rfl
  · rename_i hwaiting
    rw [dispatched?]
    cases hworker : world.workers name with
    | none => rfl
    | some worker =>
      obtain ⟨sender, stage⟩ := worker
      cases stage with
      | registered info => exact absurd hworker (hwaiting sender info)
      | idle => rfl
      | handedOff => rfl

/-- What is handed over was registered by its sender, and has been waiting since. -/
theorem exists_waits (version : Option String) (moves : List Move)
    (h : ((blank version).run moves).dispatched? (.handOff name) = some (hash, info)) :
    ∃ before move waiting, moves = before ++ move :: waiting ∧
      (blank version).Waits before move waiting name hash info := by
  -- The registration is the last move before which the attempt was not there to hand over.
  induction moves using List.reverseRecOn with
  | nil => cases h
  | append_singleton moves last ih =>
    have hlast := h
    rw [run_concat] at hlast
    rcases dispatched?_step hlast with hearlier | ⟨hown, hregistered⟩
    · obtain ⟨before, move, waiting, rfl, hwaits⟩ := ih hearlier
      refine ⟨before, move, waiting ++ [last], by simp, hwaits.own, hwaits.registered, ?_⟩
      intro passed rest hpassed
      rcases List.eq_nil_or_concat' rest with rfl | ⟨rest, _, rfl⟩
      · rw [List.append_nil] at hpassed
        subst hpassed
        simpa using h
      · rw [← List.append_assoc] at hpassed
        exact hwaits.unsent passed rest (List.append_inj' hpassed rfl).1
    · refine ⟨moves, last, [], rfl, hown, hregistered, ?_⟩
      intro passed rest hpassed
      rw [(List.append_eq_nil_iff.1 hpassed.symm).1]
      exact h

/-- Two hand-offs never go back to one registration. -/
theorem waits_apart (hfirst : world.Waits before move waiting name hash info)
    (hsecond : world.Waits before' move' waiting' again hash other)
    (h : (before ++ move :: waiting) ++ .handOff name :: later = before' ++ move' :: waiting') :
    ∃ between, before' = before ++ move :: between ∨ before = before' ++ move' :: between := by
  -- The sender has nothing left to hand over once it has handed over the first attempt.
  have hdistinct : ¬ (before = before' ∧
      move :: (waiting ++ .handOff name :: later) = move' :: waiting') := by
    rintro ⟨rfl, hrest⟩
    obtain ⟨rfl, rfl⟩ := List.cons.inj hrest
    obtain ⟨_, _, _, rfl⟩ := hfirst.own
    obtain ⟨_, _, _, hown⟩ := hsecond.own
    cases hown
    have hagain := hsecond.unsent (waiting ++ [.handOff name]) later (by simp)
    rw [← List.cons_append, ← List.append_assoc, run_concat, dispatched?_twice] at hagain
    cases hagain
  rw [List.append_assoc, List.cons_append] at h
  rcases List.append_eq_append_iff.1 h with ⟨extra, rfl, hrest⟩ | ⟨extra, rfl, hrest⟩
  · cases extra with
    | nil => exact absurd ⟨(List.append_nil _).symm, hrest⟩ hdistinct
    | cons first between =>
      rw [(List.cons.inj hrest).1]
      exact ⟨between, .inl rfl⟩
  · cases extra with
    | nil => exact absurd ⟨List.append_nil _, hrest.symm⟩ hdistinct
    | cons first between =>
      rw [(List.cons.inj hrest).1]
      exact ⟨between, .inr rfl⟩

theorem not_starts_of_registered (h : world.registered? move = some (hash, info)) :
    ¬ world.Starts [move] hash := by
  rintro ⟨creation, _, hcarries⟩
  have hop := Store.mem_of_carries hcarries
  rw [history, history, (performed_of_registered h).1] at hop
  cases List.mem_singleton.1 hop

end World

namespace Sample

open Lifecycle

def other : AttemptInfo := ⟨0, ⟨2, by decide, by decide⟩, route, 1700000001⟩

def again : World := lost.step (.start "second" creation)

def secondRegister : Move := .register "second" 1700000001 route other.sessionKey

def relaunching : World := again.step secondRegister

def dropped : World := launching.step (.control (.giveUp hash .timeout))

/-- The payment given up and started again while the first attempt waits for its sender. -/
def overtaken : World := dropped.step (.start "second" creation)

def overtakenSent : World := overtaken.step (.handOff "first")

def overtakenRelaunching : World := overtakenSent.step secondRegister

theorem again_reachable : again.Reachable := World.reachable_step lost_reachable _

theorem get?_again : again.store.get? hash = .ok (some (.fresh creation)) :=
  World.get?_of_change lost_reachable rfl get?_lost change_retry

theorem idle?_again : again.idle? "second" = some ⟨hash, 0, .empty⟩ :=
  World.idle?_start "second" ((Store.accepts_iff lost_consistent rfl get?_lost).2 ⟨_, change_retry⟩)

theorem change_other : Change hash (.register hash other) (some (.fresh creation))
    ((Payment.fresh creation).append ⟨other, .pending⟩) := .register rfl rfl

theorem registered?_second {world : World} (hreachable : world.Reachable)
    (hidle : world.idle? "second" = some ⟨hash, 0, .empty⟩)
    (hget : world.store.get? hash = .ok (some (.fresh creation))) :
    world.registered? secondRegister = some (hash, other) :=
  World.registered?_of_idle hidle
    ((Store.accepts_iff (World.sound_of_reachable hreachable).consistent rfl hget).2
      ⟨_, change_other⟩)

theorem registered?_again : again.registered? secondRegister = some (hash, other) :=
  registered?_second again_reachable idle?_again get?_again

theorem dropped_reachable : dropped.Reachable := World.reachable_step launching_reachable _

theorem get?_dropped : dropped.store.get? hash = .ok (some givenUp) :=
  World.get?_of_change launching_reachable rfl get?_launching change_giveUp

theorem overtaken_reachable : overtaken.Reachable := World.reachable_step dropped_reachable _

theorem get?_overtaken : overtaken.store.get? hash = .ok (some (.fresh creation)) :=
  World.get?_of_change dropped_reachable rfl get?_dropped change_retry

theorem dispatched?_overtaken :
    overtaken.dispatched? (.handOff "first") = some (hash, attempt) := by
  rw [overtaken, World.dispatched?_start dropped creation (by decide), dropped,
    World.dispatched?_control]
  exact dispatched?_launching

theorem overtakenSent_reachable : overtakenSent.Reachable :=
  World.reachable_step overtaken_reachable _

theorem get?_overtakenSent : overtakenSent.store.get? hash = .ok (some (.fresh creation)) :=
  (congrArg (Store.get? · hash) (World.store_handOff overtaken "first")).trans get?_overtaken

theorem idle?_overtakenSent : overtakenSent.idle? "second" = some ⟨hash, 0, .empty⟩ := by
  have hconsistent := (World.sound_of_reachable dropped_reachable).consistent
  rw [overtakenSent, World.idle?_handOff]
  exact World.idle?_start "second"
    ((Store.accepts_iff hconsistent rfl get?_dropped).2 ⟨_, change_retry⟩)

theorem registered?_overtakenSent :
    overtakenSent.registered? secondRegister = some (hash, other) :=
  registered?_second overtakenSent_reachable idle?_overtakenSent get?_overtakenSent

end Sample

end Lightpay
