import Lightpay.Proofs.Session.LostSenders
import Lightpay.Proofs.Store.Opening

/-! Closing a store and opening it again. The version alone decides whether a store opens, and
opening it once more comes to the same. A run over a file may therefore be interrupted anywhere: its
answers and the stored texts stay as they are, whatever the texts are. -/

namespace Lightpay

namespace Session

/-- What opening the store of a session comes to. -/
structure Opens (session : Session) : Prop where
  done_iff : session.openStore.1 = .ok (.control .done) ↔ session.store.version = none ∨
    ∃ text, session.store.version = some text ∧ Store.Spells text 0
  unknown_iff : ∀ version, session.openStore.1 = .error (.opening (.unknownVersion version)) ↔
    version ≠ 0 ∧ ∃ text, session.store.version = some text ∧ Store.Spells text version
  unreadable_iff : ∀ fault,
    session.openStore.1 = .error (.opening (.unreadableVersion fault)) ↔
      ∃ text, session.store.version = some text ∧ Store.Misspells text fault
  refused : ∀ fault, session.openStore.1 = .error fault →
    session.openStore.2.store = session.store
  carried : ∀ answer, session.openStore.1 = .ok answer → session.openStore.2.store =
    { session.store with version := some (session.store.version.getD "0") }
  again : session.openStore.2.openStore = session.openStore

/-- The step closes the store and opens it again. -/
def Op.reopens : Op → Bool
  | .reopen => true
  | _ => false

/-- The steps of a run with their answers. -/
def dialogue (session : Session) (steps : List (UInt64 × Op)) :
    List ((UInt64 × Op) × Except Fault Answer) :=
  steps.zip (session.run steps).1

/-- The steps without the interruptions. -/
def uninterrupted (steps : List (UInt64 × Op)) : List (UInt64 × Op) :=
  steps.filter fun step => ¬ step.2.reopens

variable {session fewer more : Session} {e : Store.OpenError} {reached : Store} {op : Op}
  {steps : List (UInt64 × Op)}

theorem openStore_of_ok (h : session.store.opened = .ok reached) : session.openStore =
    (.ok (.control .done), { session with store := reached, isOpen := true }) := by
  rw [openStore, h]

theorem openStore_of_error (h : session.store.opened = .error e) :
    session.openStore = (.error (.opening e), { session with isOpen := false }) := by
  rw [openStore, h]

theorem openStore_eq_done_iff : session.openStore.1 = .ok (.control .done) ↔
    ∃ reached, session.store.opened = .ok reached := by
  cases hopened : session.store.opened with
  | ok reached => simp [openStore_of_ok hopened]
  | error e => simp [openStore_of_error hopened]

theorem openStore_eq_fault_iff :
    session.openStore.1 = .error (.opening e) ↔ session.store.opened = .error e := by
  cases hopened : session.store.opened with
  | ok reached => simp [openStore_of_ok hopened]
  | error other => simp [openStore_of_error hopened]

theorem openStore_again (session : Session) :
    session.openStore.2.openStore = session.openStore := by
  cases hopened : session.store.opened with
  | ok reached =>
    have hagain : { session with store := reached, isOpen := true }.openStore =
        (.ok (.control .done), { session with store := reached, isOpen := true }) :=
      openStore_of_ok (Store.opened_of_opened hopened)
    rw [openStore_of_ok hopened, hagain]
  | error e =>
    have hagain : { session with isOpen := false }.openStore =
        (.error (.opening e), { session with isOpen := false }) := openStore_of_error hopened
    rw [openStore_of_error hopened, hagain]

theorem opens (session : Session) : session.Opens where
  done_iff := openStore_eq_done_iff.trans Store.exists_opened_iff
  unknown_iff _ := openStore_eq_fault_iff.trans Store.opened_eq_unknown_iff
  unreadable_iff _ := openStore_eq_fault_iff.trans Store.opened_eq_unreadable_iff
  refused := by
    intro fault hfault
    cases hopened : session.store.opened with
    | ok reached =>
      rw [openStore_of_ok hopened] at hfault
      cases hfault
    | error e => rw [openStore_of_error hopened]
  carried := by
    intro answer hanswer
    cases hopened : session.store.opened with
    | ok reached => rw [openStore_of_ok hopened, Store.eq_of_opened hopened]
    | error e =>
      rw [openStore_of_error hopened] at hanswer
      cases hanswer
  again := session.openStore_again

theorem onFile_openStore (hfile : session.persistent = true)
    (hdone : session.openStore.1 = .ok (.control .done)) : session.openStore.2.OnFile := by
  obtain ⟨reached, hopened⟩ := openStore_eq_done_iff.1 hdone
  rw [openStore_of_ok hopened]
  exact ⟨hfile, rfl, Store.opened_of_opened hopened⟩

theorem reopen_eq (hfile : session.persistent = true) :
    session.reopen = { session with senders := [] }.openStore := by
  rw [reopen, if_pos hfile]

theorem openStore_kept (session : Session) :
    session.openStore.2.persistent = session.persistent ∧
      { session.openStore.2 with senders := session.senders } = session.openStore.2 := by
  rw [openStore]
  cases session.store.opened <;> exact ⟨rfl, rfl⟩

theorem reopen_again (hfile : session.persistent = true) :
    session.reopen.2.reopen = session.reopen := by
  obtain ⟨hpersistent, hsenders⟩ := openStore_kept { session with senders := [] }
  dsimp only at hpersistent hsenders
  rw [reopen_eq hfile, reopen_eq (hpersistent.trans hfile), hsenders, openStore_again]

theorem reopens_iff : op.reopens = true ↔ op = .reopen := by
  cases op <;> simp [Op.reopens]

theorem dialogue_cons (session : Session) (now : UInt64) (op : Op)
    (steps : List (UInt64 × Op)) :
    session.dialogue ((now, op) :: steps) =
      ((now, op), (session.step now op).1) :: (session.step now op).2.dialogue steps := rfl

theorem onFile_reopen (hfile : session.OnFile) : session.reopen.2.OnFile := by
  rw [reopen_of_onFile hfile]
  exact ⟨hfile.persistent, hfile.isOpen, hfile.opened⟩

theorem within_reopen (hfile : fewer.OnFile) (h : fewer.Within more) :
    fewer.reopen.2.Within more := by
  obtain ⟨senders, rfl, _⟩ := h
  rw [reopen_of_onFile hfile]
  refine ⟨senders, rfl, fun name found hfound => ?_⟩
  cases hfound

/-- Of two runs that differ in senders, one may be interrupted. -/
theorem dialogue_uninterrupted (hfile : fewer.OnFile) (h : fewer.Within more)
    (hsteps : ∀ step ∈ steps, step.2.sender? = none ∧ ¬ step.2.Edits) :
    (fewer.dialogue steps).filter (fun asked => ¬ asked.1.2.reopens) =
        more.dialogue (uninterrupted steps) ∧
      (∀ asked ∈ fewer.dialogue steps, asked.1.2 = .reopen → asked.2 = .ok (.control .done)) ∧
      (fewer.run steps).2.Within (more.run (uninterrupted steps)).2 := by
  induction steps generalizing fewer more with
  | nil => exact ⟨rfl, List.forall_mem_nil _, h⟩
  | cons step steps ih =>
    obtain ⟨now, op⟩ := step
    obtain ⟨⟨hsender, hedits⟩, hrest⟩ := List.forall_mem_cons.1 hsteps
    rw [dialogue_cons, run_cons]
    by_cases hreopen : op = .reopen
    · -- Only the first run takes this step, and is as it was but for its senders.
      subst hreopen
      obtain ⟨hdialogue, hanswers, hfinal⟩ :=
        ih (onFile_reopen hfile) (within_reopen hfile h) hrest
      have hdone : fewer.reopen.1 = .ok (.control .done) := by rw [reopen_of_onFile hfile]
      exact ⟨hdialogue, List.forall_mem_cons.2 ⟨fun _ => hdone, hanswers⟩, hfinal⟩
    · have hkeeps : decide (¬ op.reopens = true) = true :=
        decide_eq_true (mt reopens_iff.1 hreopen)
      have hkept : uninterrupted ((now, op) :: steps) = (now, op) :: uninterrupted steps :=
        List.filter_cons_of_pos hkeeps
      obtain ⟨hanswer, hnext⟩ := alike_step h now op fun name hname => by
        rw [hsender] at hname
        cases hname
      obtain ⟨hdialogue, hanswers, hfinal⟩ := ih (onFile_turn hfile (turn_step hfile now hedits))
        hnext hrest
      rw [hkept, dialogue_cons, run_cons, ← hdialogue, ← hanswer]
      refine ⟨List.filter_cons_of_pos hkeeps, ?_, hfinal⟩
      exact List.forall_mem_cons.2 ⟨fun hop => absurd hop hreopen, hanswers⟩

/-- Opening a file either leaves it as it is or marks it, and once more comes to the same. From then
on the store may be closed and opened between any two steps that work with no sender: every opening
goes well, and the other steps get the same answers and leave the same store. -/
theorem reopening_unnoticed (session : Session) (hfile : session.persistent = true) :
    session.Opens ∧
      (∀ text, (∃ fault, Store.Misspells text fault) ↔ ∀ version, ¬ Store.Spells text version) ∧
      session.reopen = { session with senders := [] }.openStore ∧
      session.reopen.2.reopen = session.reopen ∧
      (session.openStore.1 = .ok (.control .done) →
        ∀ steps, (∀ step ∈ steps, step.2.sender? = none ∧ ¬ step.2.Edits) →
          (session.openStore.2.dialogue steps).filter (fun asked => ¬ asked.1.2.reopens) =
              session.openStore.2.dialogue (uninterrupted steps) ∧
            (∀ asked ∈ session.openStore.2.dialogue steps, asked.1.2 = .reopen →
              asked.2 = .ok (.control .done)) ∧
            (session.openStore.2.run steps).2.store =
              (session.openStore.2.run (uninterrupted steps)).2.store) := by
  refine ⟨session.opens, fun text => Store.misspells_iff, reopen_eq hfile, reopen_again hfile, ?_⟩
  intro hdone steps hsteps
  have hsame : session.openStore.2.Within session.openStore.2 := (alike_refl session.openStore).2
  obtain ⟨hdialogue, hanswers, _, hfinal, _⟩ :=
    dialogue_uninterrupted (onFile_openStore hfile hdone) hsame hsteps
  exact ⟨hdialogue, hanswers, (congrArg Session.store hfinal).symm⟩

end Session

namespace Sample

open Session

def damagedHash : PaymentHash := ⟨⟨List.replicate 32 7, rfl⟩⟩

def damaged : Session :=
  ⟨true, ⟨some "+00", Store.Table.empty.insert damagedHash "7"⟩, false, [], .quiet, [], []⟩

def damagedSteps : List (UInt64 × Session.Op) :=
  [(1, .control (.start ⟨damagedHash, ⟨1000⟩, 1700000000, []⟩)), (2, .reopen),
    (3, .control .delete)]

end Sample

namespace Session

theorem reopening_unnoticed_damaged :
    Sample.damaged.openStore.1 = .ok (.control .done) ∧
      (Sample.damaged.openStore.2.run Sample.damagedSteps).1 =
        [.error (.refused .unreadable), .ok (.control .done), .error (.refused .unreadable)] ∧
      (Sample.damaged.openStore.2.run (uninterrupted Sample.damagedSteps)).1 =
        [.error (.refused .unreadable), .error (.refused .unreadable)] ∧
      (Sample.damaged.openStore.2.run Sample.damagedSteps).2.store =
        (Sample.damaged.openStore.2.run (uninterrupted Sample.damagedSteps)).2.store := by
  obtain ⟨hopens, _, _, _, hinterrupted⟩ := reopening_unnoticed Sample.damaged rfl
  have hdone : Sample.damaged.openStore.1 = .ok (.control .done) :=
    hopens.done_iff.2 (.inr ⟨_, rfl, nofun, by simp [Store.unsigned], by decide⟩)
  have hsteps : ∀ step ∈ Sample.damagedSteps, step.2.sender? = none ∧ ¬ step.2.Edits := by
    simp [Sample.damagedSteps, Op.sender?, Op.Edits]
  obtain ⟨_, _, hstore⟩ := hinterrupted hdone Sample.damagedSteps hsteps
  exact ⟨hdone, rfl, rfl, hstore⟩

end Session

end Lightpay
