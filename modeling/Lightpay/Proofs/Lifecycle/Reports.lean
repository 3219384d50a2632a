import Lightpay.Proofs.Lifecycle.Automaton

/-! Outcomes of the attempts of one payment, reported in any order. A report is answered as
if it came first, and the reports leave the same record but for the settlement, which is
the one that came first. -/

namespace Lightpay

/-- What the network reports of an attempt. -/
inductive Report where
  | failed (id : UInt64) (failure : AttemptFailure)
  | settled (id : UInt64) (settlement : Settlement)

namespace Report

def id : Report → UInt64
  | failed id _ => id
  | settled id _ => id

def outcome : Report → Outcome
  | failed _ failure => .failed failure
  | settled _ settlement => .settled settlement

def settles : Report → Bool
  | failed _ _ => false
  | settled _ _ => true

def op (hash : PaymentHash) : Report → Lifecycle.Op
  | failed id failure => .failAttempt hash id failure
  | settled id settlement => .settle hash id settlement

theorem transition?_op (hash : PaymentHash) (report : Report) :
    ∃ transition, (report.op hash).transition? = some (hash, transition) := by
  cases report <;> exact ⟨_, rfl⟩

end Report

namespace Payment

def reported (payment : Payment) : Report → Payment
  | .failed id failure => payment.setOutcome id (.failed failure)
  | .settled id settlement =>
    { (payment.setOutcome id (.settled settlement)).recordSettle id with giveUpReason := none }

theorem setOutcomeIn_comm {left right : UInt64} (hids : left ≠ right) (first second : Outcome)
    (attempts : List Attempt) :
    setOutcomeIn left first (setOutcomeIn right second attempts) =
      setOutcomeIn right second (setOutcomeIn left first attempts) := by
  induction attempts with
  | nil => rfl
  | cons attempt attempts ih =>
    have hid : ∀ outcome : Outcome, ({ attempt with outcome } : Attempt).id = attempt.id :=
      fun _ => rfl
    by_cases hleft : attempt.id = left
    · have hright : attempt.id ≠ right := fun h => hids (hleft.symm.trans h)
      simp [setOutcomeIn, hid, hleft, hids]
    · by_cases hright : attempt.id = right
      · simp [setOutcomeIn, hid, hright, hids.symm]
      · simp [setOutcomeIn, hleft, hright, ih]

theorem info_foldl_reported (payment : Payment) (reports : List Report) :
    (reports.foldl reported payment).info = payment.info := by
  induction reports generalizing payment with
  | nil => rfl
  | cons report reports ih =>
    rw [List.foldl_cons, ih]
    cases report <;> rfl

theorem attempts_foldl_reported (payment : Payment) (reports : List Report) :
    (reports.foldl reported payment).attempts =
      reports.foldl (fun attempts report => setOutcomeIn report.id report.outcome attempts)
        payment.attempts := by
  induction reports generalizing payment with
  | nil => rfl
  | cons report reports ih =>
    rw [List.foldl_cons, ih, List.foldl_cons]
    cases report <;> rfl

theorem giveUpReason_foldl_reported (payment : Payment) (reports : List Report) :
    (reports.foldl reported payment).giveUpReason =
      if reports.any Report.settles then none else payment.giveUpReason := by
  induction reports generalizing payment with
  | nil => rfl
  | cons report reports ih =>
    rw [List.foldl_cons, ih]
    cases report with
    | failed => rfl
    | settled => simp [reported, Report.settles]

theorem settledId_foldl_reported (payment : Payment) (reports : List Report) :
    (reports.foldl reported payment).settledId =
      payment.settledId.or ((reports.find? Report.settles).map Report.id) := by
  induction reports generalizing payment with
  | nil => simp
  | cons report reports ih =>
    rw [List.foldl_cons, ih]
    cases report with
    | failed => rfl
    | settled id =>
      rw [List.find?_cons_of_pos (by rfl), Option.map_some, Report.id]
      cases hid : payment.settledId <;> simp [reported, recordSettle, setOutcome, hid]

/-- Reports of distinct attempts leave the same outcomes in any order. -/
theorem attempts_reported_perm {left right : List Report} (hperm : left.Perm right)
    (hids : (left.map Report.id).Nodup) (payment : Payment) :
    (left.foldl reported payment).attempts = (right.foldl reported payment).attempts := by
  rw [attempts_foldl_reported, attempts_foldl_reported]
  apply hperm.foldl_eq'
  intro first hfirst second hsecond attempts
  by_cases hid : first.id = second.id
  · rw [List.inj_on_of_nodup_map hids hfirst hsecond hid]
  · exact setOutcomeIn_comm (Ne.symm hid) ..

/-- Only the settlement depends on the order. -/
theorem reported_perm {left right : List Report} (hperm : left.Perm right)
    (hids : (left.map Report.id).Nodup) {payment final : Payment}
    (hfinal : right.foldl reported payment = final) :
    left.foldl reported payment = { final with
      settledId := payment.settledId.or ((left.find? Report.settles).map Report.id) } := by
  have hinfo : (left.foldl reported payment).info = final.info := by
    rw [← hfinal, info_foldl_reported, info_foldl_reported]
  have hattempts : (left.foldl reported payment).attempts = final.attempts := by
    rw [← hfinal, attempts_reported_perm hperm hids payment]
  have hreason : (left.foldl reported payment).giveUpReason = final.giveUpReason := by
    rw [← hfinal, giveUpReason_foldl_reported, giveUpReason_foldl_reported, hperm.any_eq]
  rw [← settledId_foldl_reported, ← hinfo, ← hattempts, ← hreason]

theorem settledId_isSome_perm {left right : List Report} (hperm : left.Perm right)
    (payment : Payment) : (left.foldl reported payment).settledId.isSome =
      (right.foldl reported payment).settledId.isSome := by
  have hfind : ∀ reports : List Report,
      ((reports.find? Report.settles).map Report.id).isSome = reports.any Report.settles := by
    intro reports
    rw [Option.isSome_map, Bool.eq_iff_iff, List.find?_isSome, List.any_eq_true]
  rw [settledId_foldl_reported, settledId_foldl_reported, Option.isSome_or, Option.isSome_or,
    hfind, hfind, hperm.any_eq]

theorem attempt?_reported (payment : Payment) (report : Report) {id : UInt64}
    (hid : id ≠ report.id) : (payment.reported report).attempt? id = payment.attempt? id := by
  have hset := payment.attempt?_setOutcome report.id id report.outcome
  rw [if_neg hid] at hset
  cases report <;> exact hset

end Payment

namespace Lifecycle

theorem reported_of_change {hash : PaymentHash} {report : Report} {payment updated : Payment}
    (h : Change hash (report.op hash) (some payment) updated) :
    updated = payment.reported report := by
  cases report with
  | failed =>
    cases h with
    | failAttempt => rfl
  | settled =>
    cases h with
    | settle => rfl

theorem checks_congr {hash : PaymentHash} {payment other : Payment} (hids : payment.DistinctIds)
    (hidsOther : other.DistinctIds) {report : Report}
    (h : other.attempt? report.id = payment.attempt? report.id) :
    (report.op hash).checks hash (some other) = (report.op hash).checks hash (some payment) := by
  have hregistered : Registered report.id (some other) ↔ Registered report.id (some payment) := by
    rw [registered_iff, registered_iff, h]
  have hawaited : Awaited report.id (some other) ↔ Awaited report.id (some payment) := by
    rw [awaited_iff hidsOther, awaited_iff hids, h]
  have hchecks : awaitedChecks report.id (some other) =
      awaitedChecks report.id (some payment) := by
    rw [awaitedChecks, awaitedChecks, propext hregistered, propext hawaited]
  cases report with
  | failed => exact congrArg _ hchecks
  | settled => exact congrArg _ (congrArg _ hchecks)

end Lifecycle

open Lifecycle

namespace Store

/-- Whether an operation is carried out, or the error that it is refused with. -/
def verdict (store : Store) (op : Op) : Except Error Unit := (store.step op).1.map fun _ => ()

def verdicts (store : Store) (ops : List Op) : List (Except Error Unit) :=
  (store.run ops).1.map fun answer => answer.map fun _ => ()

/-- The reports of a list that are carried out. -/
def accepted (store : Store) (hash : PaymentHash) (reports : List Report) : List Report :=
  reports.filter fun report => (store.verdict (report.op hash)).isOk

/-- The attempt that settles first. -/
def firstSettled (store : Store) (hash : PaymentHash) (reports : List Report) : Option UInt64 :=
  ((store.accepted hash reports).find? Report.settles).map Report.id

variable {store : Store} {hash : PaymentHash} {payment : Payment}

theorem verdicts_cons (store : Store) (op : Op) (ops : List Op) :
    store.verdicts (op :: ops) = store.verdict op :: (store.step op).2.verdicts ops := rfl

theorem verdict_error_iff {op : Op} {transition : Transition} {current : Option Payment}
    (hsound : store.Sound) (hget : store.get? hash = .ok current)
    (hop : op.transition? = some (hash, transition)) (e : Error) :
    store.verdict op = .error e ↔ FirstFailing (op.checks hash current) e := by
  rw [← error_iff_firstFailing hsound hget hop, verdict]
  cases (store.step op).1 <;> simp [Except.map]

theorem verdict_isOk_iff (store : Store) (op : Op) :
    (store.verdict op).isOk = true ↔ store.Accepts op := by
  rw [verdict, step]
  cases happly : store.apply op with
  | ok done => exact iff_of_true rfl ⟨done.1, done.2, happly⟩
  | error e =>
    refine iff_of_false Bool.false_ne_true ?_
    rintro ⟨answer, reached, hok⟩
    cases happly.symm.trans hok

theorem verdict_congr {other : Store} {op : Op} {transition : Transition}
    {current currentOther : Option Payment} (hsound : store.Sound) (hsoundOther : other.Sound)
    (hget : store.get? hash = .ok current) (hgetOther : other.get? hash = .ok currentOther)
    (hop : op.transition? = some (hash, transition))
    (hchecks : op.checks hash currentOther = op.checks hash current) :
    other.verdict op = store.verdict op := by
  have herror : ∀ e, other.verdict op = .error e ↔ store.verdict op = .error e := by
    intro e
    rw [verdict_error_iff hsoundOther hgetOther hop, hchecks, verdict_error_iff hsound hget hop]
  cases hverdict : store.verdict op with
  | error e => exact (herror e).2 hverdict
  | ok =>
    cases hother : other.verdict op with
    | ok => rfl
    | error e => cases ((herror e).1 hother).symm.trans hverdict

theorem get?_step_report (hsound : store.Sound) (hget : store.get? hash = .ok (some payment))
    (report : Report) : (store.step (report.op hash)).2.get? hash = .ok (some
      (if (store.verdict (report.op hash)).isOk then payment.reported report else payment)) := by
  obtain ⟨transition, hop⟩ := report.transition?_op hash
  split
  · rename_i hok
    obtain ⟨current, updated, hcurrent, h, hupdated⟩ :=
      change_of_accepts hsound hop ((store.verdict_isOk_iff _).1 hok)
    cases hget.symm.trans hcurrent
    rw [hupdated, reported_of_change h]
  · rename_i hrefused
    rw [refused_unchanged store _ fun h => hrefused ((store.verdict_isOk_iff _).2 h), hget]

/-- A report leaves the verdict on reports of other attempts as it was. -/
theorem verdict_step_report (hsound : store.Sound)
    (hget : store.get? hash = .ok (some payment)) {first second : Report}
    (hid : second.id ≠ first.id) :
    (store.step (first.op hash)).2.verdict (second.op hash) = store.verdict (second.op hash) := by
  obtain ⟨transition, hop⟩ := second.transition?_op hash
  have hsoundNext := sound_step hsound (first.op hash)
  have hgetNext := get?_step_report hsound hget first
  refine verdict_congr hsound hsoundNext hget hgetNext hop ?_
  apply checks_congr (hsound.payments hash _ hget).distinct_ids
    (hsoundNext.payments hash _ hgetNext).distinct_ids
  split
  · exact payment.attempt?_reported first hid
  · rfl

theorem verdicts_reports (hsound : store.Sound) (hget : store.get? hash = .ok (some payment))
    (reports : List Report) (hids : (reports.map Report.id).Nodup) :
    store.verdicts (reports.map (Report.op hash)) =
      reports.map fun report => store.verdict (report.op hash) := by
  induction reports generalizing store payment with
  | nil => rfl
  | cons first reports ih =>
    obtain ⟨hnew, hids⟩ := List.nodup_cons.1 hids
    -- The others are answered after the first report, which leaves their verdicts as they were.
    rw [List.map_cons, verdicts_cons, List.map_cons,
      ih (sound_step hsound _) (get?_step_report hsound hget first) hids]
    refine congrArg _ (List.map_congr_left fun report hmem => ?_)
    refine verdict_step_report hsound hget fun hid => hnew ?_
    exact hid ▸ List.mem_map_of_mem hmem

theorem get?_reports (hsound : store.Sound) (hget : store.get? hash = .ok (some payment))
    (reports : List Report) (hids : (reports.map Report.id).Nodup) :
    (store.ran (reports.map (Report.op hash))).get? hash =
      .ok (some ((store.accepted hash reports).foldl Payment.reported payment)) := by
  induction reports generalizing store payment with
  | nil => exact hget
  | cons first reports ih =>
    obtain ⟨hnew, hids⟩ := List.nodup_cons.1 hids
    -- The first report changes nothing about which of the others are accepted.
    have hrest : (store.step (first.op hash)).2.accepted hash reports =
        store.accepted hash reports := by
      apply List.filter_congr
      intro report hmem
      rw [verdict_step_report hsound hget fun hid => hnew (hid ▸ List.mem_map_of_mem hmem)]
    rw [List.map_cons, ran_cons,
      ih (sound_step hsound _) (get?_step_report hsound hget first) hids, hrest, accepted,
      accepted, List.filter_cons]
    split <;> rfl

/-- Reports of distinct attempts converge. In any order each gets the same answer, and they leave
the same record but for the settlement: it stays what it was, or is the first in that order. -/
theorem reports_converge (hreachable : store.Reachable)
    (hget : store.get? hash = .ok (some payment)) (reports : List Report)
    (hids : (reports.map Report.id).Nodup) :
    ∃ final : Payment, ∀ order : List Report, order.Perm reports →
      store.verdicts (order.map (Report.op hash)) =
        order.map (fun report => store.verdict (report.op hash)) ∧
      ∃ last, (store.ran (order.map (Report.op hash))).get? hash = .ok (some last) ∧
        last = { final with
          settledId := payment.settledId.or (store.firstSettled hash order) } ∧
        last.status = final.status ∧ last.giveUpReason = final.giveUpReason := by
  have hsound := sound_of_reachable hreachable
  have hreports := get?_reports hsound hget reports hids
  generalize hfinal : (store.accepted hash reports).foldl Payment.reported payment = final
    at hreports
  refine ⟨final, fun order hperm => ?_⟩
  have haccepted : (store.accepted hash order).Perm (store.accepted hash reports) :=
    hperm.filter _
  have hidsOrder : (order.map Report.id).Nodup := (hperm.map Report.id).nodup_iff.2 hids
  have hidsAccepted : ((store.accepted hash order).map Report.id).Nodup :=
    hidsOrder.sublist (List.filter_sublist.map Report.id)
  have hlast := get?_reports hsound hget order hidsOrder
  have hrecord := Payment.reported_perm haccepted hidsAccepted hfinal
  refine ⟨verdicts_reports hsound hget order hidsOrder, _, hlast, hrecord, ?_, ?_⟩
  · -- The status asks whether there is a settlement, not which one it is.
    have hsettled := Payment.settledId_isSome_perm haccepted payment
    rw [hfinal] at hsettled
    rw [Payment.status_of_sound ((sound_ran hsound _).payments hash _ hlast),
      Payment.status_of_sound ((sound_ran hsound _).payments hash _ hreports), hsettled, hrecord]
  · rw [hrecord]

end Store

namespace Sample

def shard : AttemptInfo := ⟨1, ⟨3, by decide, by decide⟩, route, 1700000001⟩

def sharded : Payment := pending.append ⟨shard, .pending⟩

def spread : Store := Store.empty.ran
  [.start creation, .register hash attempt, .register hash shard]

theorem spread_reachable : spread.Reachable := ⟨none, _, rfl⟩

theorem change_shard : Change hash (.register hash shard) (some pending) sharded :=
  .register rfl rfl

theorem get?_spread : spread.get? hash = .ok (some sharded) := by
  rw [spread, Store.get?_ran consistent_empty _ get?_empty, foldl_after_of_change _ change_start,
    foldl_after_of_change _ change_register, foldl_after_of_change _ change_shard,
    List.foldl_nil]

def settlements : List Report := [.settled 0 settlement, .settled 1 settlement]

theorem accepted_settlements (order : List Report) (h : order.Perm settlements) :
    spread.accepted hash order = order := by
  apply List.filter_eq_self.2
  intro report hmem
  have haccepts : ∀ id info, sharded.attempt? id = some ⟨info, .pending⟩ →
      spread.Accepts (.settle hash id settlement) := by
    intro id info hpending
    exact (Store.accepts_iff (Store.sound_of_reachable spread_reachable).consistent rfl
      get?_spread).2 ⟨_, .settle rfl hpending⟩
  rw [h.mem_iff, settlements, List.mem_cons, List.mem_singleton] at hmem
  rcases hmem with rfl | rfl
  · exact (spread.verdict_isOk_iff _).2 (haccepts 0 attempt rfl)
  · exact (spread.verdict_isOk_iff _).2 (haccepts 1 shard rfl)

end Sample

theorem Store.reports_converge_settlements : ∃ first second : Payment,
    (Sample.spread.ran (Sample.settlements.map (Report.op Sample.hash))).get? Sample.hash =
        .ok (some first) ∧
      (Sample.spread.ran (Sample.settlements.reverse.map (Report.op Sample.hash))).get?
        Sample.hash = .ok (some second) ∧
      first.settledId = some 0 ∧ second.settledId = some 1 ∧
      first.attempts = second.attempts ∧ first.status = second.status := by
  obtain ⟨final, hfinal⟩ := reports_converge Sample.spread_reachable Sample.get?_spread
    Sample.settlements (by decide)
  have hreverse := List.reverse_perm Sample.settlements
  obtain ⟨_, first, hfirst, hrecord, hstatus, _⟩ := hfinal Sample.settlements (List.Perm.refl _)
  obtain ⟨_, second, hsecond, hrecordSecond, hstatusSecond, _⟩ := hfinal _ hreverse
  rw [firstSettled, Sample.accepted_settlements _ (List.Perm.refl _)] at hrecord
  rw [firstSettled, Sample.accepted_settlements _ hreverse] at hrecordSecond
  refine ⟨first, second, hfirst, hsecond, ?_, ?_, ?_, hstatus.trans hstatusSecond.symm⟩
  · rw [hrecord]
    rfl
  · rw [hrecordSecond]
    rfl
  · rw [hrecord, hrecordSecond]

end Lightpay
