import Lightpay.Proofs.Session.Steps

/-! Two runs of the same steps, where one session has lost some senders of the other. Nothing else
tells the sessions apart, so no answer and no stored text does, until a step works with a sender
that was lost. -/

namespace Lightpay.Session

/-- The same session, with these senders and maybe more. -/
def Within (fewer more : Session) : Prop :=
  ∃ senders, more = { fewer with senders } ∧
    ∀ name sender, fewer.senders.lookup name = some sender → senders.lookup name = some sender

/-- Steps with the same answer, to sessions that differ in lost senders only. -/
def Alike (fewer more : Except Fault Answer × Session) : Prop :=
  fewer.1 = more.1 ∧ fewer.2.Within more.2

/-- The sender that an operation works with. -/
def Op.sender? : Op → Option String
  | .senderLaunch name .. | .senderFailAttempt name .. | .senderPayment name
  | .senderSettle name .. | .senderGiveUp name _ => some name
  | _ => none

variable {fewer more : Session} {op : Op} {name : String}

theorem lookup_changed {kept all keptAfter allAfter : List (String × Sender)}
    {entry : Option Sender}
    (h : ∀ other found, kept.lookup other = some found → all.lookup other = some found)
    (hkept : ∀ other, keptAfter.lookup other = if other = name then entry else kept.lookup other)
    (hall : ∀ other, allAfter.lookup other = if other = name then entry else all.lookup other) :
    ∀ other found, keptAfter.lookup other = some found →
      allAfter.lookup other = some found := by
  intro other found hfound
  rw [hkept] at hfound
  rw [hall]
  by_cases hother : other = name
  · rwa [if_pos hother] at hfound ⊢
  · rw [if_neg hother] at hfound ⊢
    exact h other found hfound

theorem within_setSender (h : fewer.Within more) (name : String) (sender : Sender) :
    (fewer.setSender name sender).Within (more.setSender name sender) := by
  obtain ⟨senders, rfl, hsenders⟩ := h
  exact ⟨_, rfl, lookup_changed hsenders (lookup_setSender fewer name · sender)
    (lookup_setSender { fewer with senders } name · sender)⟩

theorem within_dropSender (h : fewer.Within more) (name : String) :
    (fewer.dropSender name).Within (more.dropSender name) := by
  obtain ⟨senders, rfl, hsenders⟩ := h
  exact ⟨_, rfl, lookup_changed hsenders (lookup_dropSender fewer name)
    (lookup_dropSender { fewer with senders } name)⟩

theorem alike_commit (h : fewer.Within more) (result : Except Error (α × Store))
    (answer : α → Answer) : Alike (fewer.commit result answer) (more.commit result answer) := by
  cases result with
  | error e => exact ⟨rfl, h⟩
  | ok done =>
    obtain ⟨senders, rfl, hsenders⟩ := h
    exact ⟨rfl, senders, rfl, hsenders⟩

theorem alike_withSender (h : fewer.Within more)
    (hlost : fewer.senders.lookup name = none → more.senders.lookup name = none)
    {use same : Sender → Except Fault Answer × Session}
    (huse : ∀ sender, Alike (use sender) (same sender)) :
    Alike (fewer.withSender name use) (more.withSender name same) := by
  rw [withSender, withSender]
  cases hlookup : fewer.senders.lookup name with
  | none =>
    rw [hlost hlookup]
    exact ⟨rfl, h⟩
  | some sender =>
    obtain ⟨senders, rfl, hsenders⟩ := h
    rw [hsenders name sender hlookup]
    exact huse sender

theorem alike_launch (h : fewer.Within more) (now : UInt64) (name : String) (route : Route)
    (sessionKey : SecretKey) (peer : NodeAddress) (ended : UInt64) (sender : Sender) :
    Alike (fewer.launch now name route sessionKey peer ended sender)
      (more.launch now name route sessionKey peer ended sender) := by
  obtain ⟨senders, hsenders, hlookup⟩ := within_setSender h name
    (sender.launch fewer.store now ended fewer.transport.script route sessionKey).sender
  obtain ⟨_, rfl, _⟩ := h
  rw [launch, launch]
  dsimp only
  rw [hsenders]
  cases (sender.launch fewer.store now ended fewer.transport.script route sessionKey).result <;>
    exact ⟨rfl, senders, rfl, hlookup⟩

theorem alike_stepOpen (h : fewer.Within more) (now : UInt64)
    (hlost : ∀ name, op.sender? = some name → fewer.senders.lookup name = none →
      more.senders.lookup name = none) :
    Alike (fewer.stepOpen now op) (more.stepOpen now op) := by
  have hwithin := h
  obtain ⟨senders, rfl, hsenders⟩ := h
  cases op with
  | control op => exact alike_commit hwithin _ _
  | put hash payment => exact alike_commit hwithin _ _
  | reject hash text => exact ⟨rfl, hwithin⟩
  | get hash => exact alike_commit hwithin _ _
  | removeAll status => exact alike_commit hwithin _ _
  | undo action => exact alike_commit hwithin _ _
  | senderStart name info =>
    rw [stepOpen, stepOpen]
    dsimp only
    cases Sender.start fewer.store info with
    | error e => exact ⟨rfl, hwithin⟩
    | ok started =>
      have hstored : ({ fewer with store := started.2 }).Within
          { fewer with store := started.2, senders } := ⟨senders, rfl, hsenders⟩
      exact ⟨rfl, within_setSender hstored name started.1⟩
  | senderResume name hash =>
    rw [stepOpen, stepOpen]
    dsimp only
    cases Sender.resume fewer.store hash with
    | error e => exact ⟨rfl, hwithin⟩
    | ok resumed => exact ⟨rfl, within_setSender hwithin name resumed⟩
  | senderLaunch name route sessionKey peer ended =>
    exact alike_withSender hwithin (hlost name rfl) fun sender =>
      alike_launch hwithin now name route sessionKey peer ended sender
  | senderFailAttempt name id failure =>
    exact alike_withSender hwithin (hlost name rfl) fun sender => alike_commit hwithin _ _
  | senderPayment name =>
    exact alike_withSender hwithin (hlost name rfl) fun sender => alike_commit hwithin _ _
  | senderSettle name id preimage =>
    exact alike_withSender hwithin (hlost name rfl) fun sender =>
      alike_commit (within_dropSender hwithin name) _ _
  | senderGiveUp name reason =>
    exact alike_withSender hwithin (hlost name rfl) fun sender =>
      alike_commit (within_dropSender hwithin name) _ _
  | _ => exact ⟨rfl, hwithin⟩

theorem alike_refl (done : Except Fault Answer × Session) : Alike done done :=
  ⟨rfl, done.2.senders, rfl, fun _ _ h => h⟩

/-- A step that works with no lost sender does the same in both sessions. -/
theorem alike_step (h : fewer.Within more) (now : UInt64) (op : Op)
    (hlost : ∀ name, op.sender? = some name → fewer.senders.lookup name = none →
      more.senders.lookup name = none) :
    Alike (fewer.step now op) (more.step now op) := by
  have hopen := alike_stepOpen h now hlost
  have hclosed : Alike (.error .closed, fewer) (.error .closed, more) := ⟨rfl, h⟩
  obtain ⟨senders, rfl, hsenders⟩ := h
  cases op with
  | setTransport transport => exact ⟨rfl, senders, rfl, hsenders⟩
  | dispatched => exact ⟨rfl, senders, rfl, hsenders⟩
  -- These drop every sender, lost before or not.
  | reopen => exact alike_refl _
  | writeText hash text => exact alike_refl _
  | writeVersion version => exact alike_refl _
  | _ =>
    simp only [step]
    split
    · exact hopen
    · exact hclosed

/-- No step works with a sender that only the session with more senders has. -/
def Spares (fewer more : Session) (steps : List (UInt64 × Op)) : Prop :=
  ∀ before now op later name, steps = before ++ (now, op) :: later → op.sender? = some name →
    (fewer.run before).2.senders.lookup name = none →
      (more.run before).2.senders.lookup name = none

theorem lost_of_within (h : more.Within fewer) (hlookup : fewer.senders.lookup name = none) :
    more.senders.lookup name = none := by
  obtain ⟨senders, rfl, hsenders⟩ := h
  cases hmore : more.senders.lookup name with
  | none => rfl
  | some sender => cases hlookup.symm.trans (hsenders name sender hmore)

theorem spares_of_within (h : fewer.Within more) (hback : more.Within fewer)
    (steps : List (UInt64 × Op)) : fewer.Spares more steps := by
  rintro before now op later name - -
  induction before generalizing fewer more with
  | nil => exact lost_of_within hback
  | cons step before ih =>
    obtain ⟨_, hforth⟩ := alike_step h step.1 step.2 fun _ _ => lost_of_within hback
    obtain ⟨_, hnext⟩ := alike_step hback step.1 step.2 fun _ _ => lost_of_within h
    exact ih hforth hnext

theorem within_run (h : fewer.Within more) {steps : List (UInt64 × Op)}
    (hspares : fewer.Spares more steps) :
    (fewer.run steps).1 = (more.run steps).1 ∧ (fewer.run steps).2.Within (more.run steps).2 := by
  induction steps generalizing fewer more with
  | nil => exact ⟨rfl, h⟩
  | cons step steps ih =>
    obtain ⟨now, op⟩ := step
    obtain ⟨hanswer, hwithin⟩ := alike_step h now op fun name hname =>
      hspares [] now op steps name rfl hname
    have hrest : (fewer.step now op).2.Spares (more.step now op).2 steps := by
      intro before next later other name hsteps
      exact hspares ((now, op) :: before) next later other name (by rw [hsteps, List.cons_append])
    obtain ⟨hanswers, hfinal⟩ := ih hwithin hrest
    refine ⟨?_, hfinal⟩
    rw [run_cons, run_cons, hanswer, hanswers]

end Lightpay.Session
