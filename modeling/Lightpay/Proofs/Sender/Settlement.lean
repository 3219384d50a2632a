import Lightpay.Proofs.Lifecycle.ExactlyOnce
import Lightpay.Proofs.Lifecycle.History
import Lightpay.Proofs.Lifecycle.Reports
import Lightpay.Proofs.Sender.World
import Mathlib.Data.List.Induction

/-! What a sender gets to see when it settles. The payment has succeeded, and the preimage and the
time are those of the settlement that came first since the payment was started, whoever recorded
it and for whichever attempt. -/

namespace Lightpay

open Lifecycle

namespace Lifecycle

variable {hash : PaymentHash} {op : Op} {payment updated : Payment}

theorem settledId_of_change (hnone : payment.settledId = none)
    (h : Change hash op (some payment) updated)
    (hsettle : ∀ id settlement, op ≠ .settle hash id settlement) : updated.settledId = none := by
  cases h with
  | startAgain => rfl
  | register => exact hnone
  | failAttempt => exact hnone
  | giveUp => exact hnone
  | settle => exact absurd rfl (hsettle _ _)

theorem settledAttempt?_of_first {id : UInt64} {settlement : Settlement}
    (hnone : payment.settledId = none)
    (h : Change hash (.settle hash id settlement) (some payment) updated) :
    ∃ info : AttemptInfo, info.id = id ∧
      updated.settledAttempt? = some ⟨info, .settled settlement⟩ := by
  obtain ⟨_, info, ⟨⟩, hpending, hrecorded, _⟩ := attempt?_of_outcome? rfl h
  have hid : info.id = id := Payment.id_of_attempt? hpending
  have hsettledId : updated.settledId = some id := by
    cases h with
    | @settle _ _ payment =>
      have hkept : (payment.setOutcome id (.settled settlement)).settledId = none := hnone
      rw [Payment.recordSettle, hkept, Option.getD_none]
  subst hid
  exact ⟨info, rfl, Payment.settledAttempt?_eq_some_iff.2 ⟨hsettledId, hrecorded, settlement, rfl⟩⟩

end Lifecycle

namespace Store

variable {store : Store} {hash : PaymentHash} {before since ops : List Op} {op : Op}
  {info : CreationInfo} {payment : Payment}

/-- The payment under the hash was started after the operations before, and since then it was
neither started again nor removed. -/
structure Began (store : Store) (hash : PaymentHash) (before : List Op) (info : CreationInfo)
    (since : List Op) : Prop where
  hash_eq : info.hash = hash
  accepted : (store.ran before).Accepts (.start info)
  not_restarted : ∀ again : CreationInfo, again.hash = hash →
    ¬ (store.ran (before ++ [.start info])).Carries since (.start again)
  not_removed : ¬ (store.ran (before ++ [.start info])).Removes since hash

/-- Of all settlements of the payment that was started last, this one was carried out first. -/
def SettledFirst (store : Store) (ops : List Op) (hash : PaymentHash) (id : UInt64)
    (settlement : Settlement) : Prop :=
  ∃ before info between later,
    ops = before ++ .start info :: (between ++ .settle hash id settlement :: later) ∧
    store.Began hash before info (between ++ .settle hash id settlement :: later) ∧
    (store.ran (before ++ .start info :: between)).Accepts (.settle hash id settlement) ∧
    ∀ other earlier,
      ¬ (store.ran (before ++ [.start info])).Carries between (.settle hash other earlier)

theorem ran_append_cons (store : Store) (before : List Op) (op : Op) (later : List Op) :
    store.ran (before ++ op :: later) = (store.ran (before ++ [op])).ran later := by
  rw [List.append_cons, ran_append]

theorem concat_cases {last : Op} {later : List Op} (h : ops ++ [last] = before ++ op :: later) :
    (ops = before ∧ last = op) ∨
      ∃ rest, ops = before ++ op :: rest ∧ later = rest ++ [last] := by
  rcases List.eq_nil_or_concat' later with rfl | ⟨rest, other, rfl⟩
  · obtain ⟨hops, hlast⟩ := List.append_inj' h rfl
    exact .inl ⟨hops, (List.cons.inj hlast).1⟩
  · rw [← List.cons_append, ← List.append_assoc] at h
    obtain ⟨hops, hlast⟩ := List.append_inj' h rfl
    exact .inr ⟨rest, hops, by rw [hlast]⟩

theorem carries_concat_iff {last : Op} : store.Carries (ops ++ [last]) op ↔
    store.Carries ops op ∨ op = last ∧ (store.ran ops).Accepts op := by
  constructor
  · rintro ⟨before, later, hops, haccepts⟩
    rcases concat_cases hops with ⟨rfl, rfl⟩ | ⟨rest, rfl, _⟩
    · exact .inr ⟨rfl, haccepts⟩
    · exact .inl ⟨before, rest, rfl, haccepts⟩
  · rintro (hcarries | ⟨rfl, haccepts⟩)
    · exact carries_append_left _ hcarries
    · exact ⟨ops, [], rfl, haccepts⟩

theorem removes_append_left {left : List Op} (right : List Op) (h : store.Removes left hash) :
    store.Removes (left ++ right) hash := by
  obtain ⟨before, later, payment, rfl, hget, hnone⟩ := h
  exact ⟨before, later ++ right, payment, by simp, hget, hnone⟩

theorem removes_concat {last : Op} (h : store.Removes (ops ++ [last]) hash) :
    store.Removes ops hash ∨ (store.ran (ops ++ [last])).get? hash = .ok none := by
  obtain ⟨before, later, payment, hops, hget, hnone⟩ := h
  rcases concat_cases hops with ⟨rfl, rfl⟩ | ⟨rest, rfl, _⟩
  · exact .inr hnone
  · exact .inl ⟨before, rest, payment, rfl, hget, hnone⟩

theorem exists_first_carried (p : Op → Prop) (ops : List Op)
    (h : ∃ op, p op ∧ store.Carries ops op) :
    ∃ before op later, ops = before ++ op :: later ∧ p op ∧ (store.ran before).Accepts op ∧
      ∀ other, p other → ¬ store.Carries before other := by
  induction ops using List.reverseRecOn with
  | nil =>
    obtain ⟨op, _, hcarries⟩ := h
    cases mem_of_carries hcarries
  | append_singleton ops last ih =>
    by_cases hearlier : ∃ op, p op ∧ store.Carries ops op
    · obtain ⟨before, op, later, rfl, hop, haccepts, hfirst⟩ := ih hearlier
      exact ⟨before, op, later ++ [last], by simp, hop, haccepts, hfirst⟩
    · obtain ⟨op, hop, hcarries⟩ := h
      rcases carries_concat_iff.1 hcarries with hcarried | ⟨rfl, haccepts⟩
      · exact absurd ⟨op, hop, hcarried⟩ hearlier
      · exact ⟨ops, op, [], rfl, hop, haccepts, fun other hother hcarried =>
          hearlier ⟨other, hother, hcarried⟩⟩

theorem fresh_of_began (hsound : store.Sound)
    (hbegan : store.Began hash before info since) :
    (store.ran (before ++ [.start info])).get? hash = .ok (some (.fresh info)) := by
  have hfresh := fresh_of_accepts (sound_ran hsound before) hbegan.accepted
  rw [hbegan.hash_eq] at hfresh
  rw [ran_concat]
  exact hfresh

theorem started_or_stored (hsound : store.Sound) (op : Op)
    (hget : (store.step op).2.get? hash = .ok (some payment)) :
    (∃ info : CreationInfo, info.hash = hash ∧ op = .start info ∧ store.Accepts (.start info)) ∨
      ∃ earlier, store.get? hash = .ok (some earlier) := by
  obtain ⟨current, hcurrent, _⟩ := hsound.consistent hash
  cases current with
  | some earlier => exact .inr ⟨earlier, hcurrent⟩
  | none =>
    rw [get?_step hsound.consistent op hcurrent, Except.ok.injEq] at hget
    obtain ⟨updated, h, _⟩ | ⟨_, hnothing⟩ | hnothing := after_cases hash op none
    · cases h with
      | @startFirst info hhash =>
        subst hhash
        exact .inl ⟨info, rfl, rfl,
          (accepts_iff hsound.consistent rfl hcurrent).2 ⟨_, .startFirst rfl⟩⟩
    · cases hnothing.symm.trans hget
    · cases hnothing.symm.trans hget

theorem began_concat (hbegan : store.Began hash before info since)
    (hstart : ¬ ∃ again : CreationInfo, again.hash = hash ∧ op = .start again ∧
      (store.ran (before ++ .start info :: since)).Accepts (.start again))
    (hget : (store.ran (before ++ .start info :: (since ++ [op]))).get? hash =
      .ok (some payment)) : store.Began hash before info (since ++ [op]) := by
  refine ⟨hbegan.hash_eq, hbegan.accepted, fun again hhash hcarries => ?_, fun hremoves => ?_⟩
  · rcases carries_concat_iff.1 hcarries with hcarried | ⟨rfl, haccepts⟩
    · exact hbegan.not_restarted again hhash hcarried
    · rw [← ran_append_cons] at haccepts
      exact hstart ⟨again, hhash, rfl, haccepts⟩
  · rcases removes_concat hremoves with hremoved | hnone
    · exact hbegan.not_removed hremoved
    · rw [← ran_append_cons] at hnone
      cases hnone.symm.trans hget

theorem exists_began (hsound : store.Sound) (hnone : store.get? hash = .ok none) (ops : List Op)
    (hget : (store.ran ops).get? hash = .ok (some payment)) :
    ∃ before info since, ops = before ++ .start info :: since ∧
      store.Began hash before info since := by
  -- From the end backwards: a payment that no step started was there before the step.
  induction ops using List.reverseRecOn generalizing payment with
  | nil => cases hnone.symm.trans hget
  | append_singleton ops op ih =>
    by_cases hstart : ∃ info : CreationInfo, info.hash = hash ∧ op = .start info ∧
        (store.ran ops).Accepts (.start info)
    · obtain ⟨info, hhash, rfl, haccepts⟩ := hstart
      refine ⟨ops, info, [], rfl, hhash, haccepts, fun again _ hcarries => ?_, fun hremoves => ?_⟩
      · cases mem_of_carries hcarries
      · cases delete_mem_of_removes hremoves
    · have hstep : ((store.ran ops).step op).2.get? hash = .ok (some payment) := by
        rwa [ran_concat] at hget
      obtain ⟨earlier, hearlier⟩ :=
        (started_or_stored (sound_ran hsound ops) op hstep).resolve_left hstart
      obtain ⟨before, info, since, rfl, hbegan⟩ := ih hearlier
      rw [List.append_assoc, List.cons_append] at hget ⊢
      exact ⟨before, info, since ++ [op], rfl, began_concat hbegan hstart hget⟩

theorem unsettled_ran (hsound : store.Sound) (ops : List Op)
    (hget : store.get? hash = .ok (some payment)) (hnone : payment.settledId = none)
    (hremoves : ¬ store.Removes ops hash)
    (hsettle : ∀ id settlement, ¬ store.Carries ops (.settle hash id settlement)) :
    ∃ kept, (store.ran ops).get? hash = .ok (some kept) ∧ kept.settledId = none := by
  apply ran_keeps_payment (·.settledId = none) hsound ops hget hnone hremoves
  intro op payment updated _ hkept h hcarries
  apply settledId_of_change hkept h
  rintro id settlement rfl
  exact hsettle id settlement hcarries

/-- The first settlement is the one that the payment names, as long as the payment is there. -/
theorem settledAttempt?_ran (hsound : store.Sound)
    (hget : store.get? hash = .ok (some payment)) (hnone : payment.settledId = none)
    {between later : List Op} {id : UInt64} {settlement : Settlement}
    (haccepts : (store.ran between).Accepts (.settle hash id settlement))
    (hfirst : ∀ other earlier, ¬ store.Carries between (.settle hash other earlier))
    (hrestart : ∀ again : CreationInfo, again.hash = hash →
      ¬ store.Carries (between ++ .settle hash id settlement :: later) (.start again))
    (hremoves : ¬ store.Removes (between ++ .settle hash id settlement :: later) hash) :
    ∃ last info,
      (store.ran (between ++ .settle hash id settlement :: later)).get? hash = .ok (some last) ∧
        info.id = id ∧ last.settledAttempt? = some ⟨info, .settled settlement⟩ := by
  have hsplit : between ++ .settle hash id settlement :: later =
      (between ++ [.settle hash id settlement]) ++ later := List.append_cons ..
  have hreached := sound_ran hsound between
  obtain ⟨kept, hkept, hunsettled⟩ := unsettled_ran hsound between hget hnone
    (fun h => hremoves (removes_append_left _ h)) hfirst
  obtain ⟨current, settled, hcurrent, h, hsettled⟩ := change_of_accepts hreached rfl haccepts
  cases hkept.symm.trans hcurrent
  obtain ⟨info, hid, hattempt⟩ := settledAttempt?_of_first hunsettled h
  have hafter : (store.ran (between ++ [.settle hash id settlement])).get? hash =
      .ok (some settled) := by
    rw [ran_concat, hsettled]
  have hsoundAfter := sound_ran hsound (between ++ [.settle hash id settlement])
  rw [hsplit] at hrestart hremoves ⊢
  -- What comes later extends the record, and so keeps the settlement that it names.
  obtain ⟨last, hlast, hextends⟩ := extends_ran hsoundAfter hafter later
    (fun again hhash hcarries => hrestart again hhash (carries_append_right _ hcarries))
    (fun hremoved => hremoves (removes_append_right _ hremoved))
  rw [← ran_append] at hlast
  have hsoundLast := (sound_ran hsound _).payments hash last hlast
  exact ⟨last, info, hlast, hid,
    Payment.settledAttempt?_of_extends hsoundLast hextends hattempt⟩

/-- After a settlement that is carried out, the payment names the one that was carried out first. -/
theorem settledFirst_of_accepts (hsound : store.Sound) (hempty : store.get? hash = .ok none)
    (ops : List Op) {id : UInt64} {settlement : Settlement}
    (haccepts : (store.ran ops).Accepts (.settle hash id settlement))
    (hget : (store.ran (ops ++ [.settle hash id settlement])).get? hash = .ok (some payment)) :
    ∃ attempt first, payment.settledAttempt? = some attempt ∧ attempt.outcome = .settled first ∧
      store.SettledFirst (ops ++ [.settle hash id settlement]) hash attempt.id first := by
  obtain ⟨before, info, since, hops, hbegan⟩ := exists_began hsound hempty _ hget
  obtain ⟨_, hlast⟩ | ⟨rest, rfl, rfl⟩ := concat_cases hops
  · cases hlast
  rw [ran_append_cons] at haccepts
  -- One settlement at least was carried out since the start, namely the last operation.
  obtain ⟨between, op, later, hsince, ⟨firstId, first, rfl⟩, hfirst, hearlier⟩ :=
    exists_first_carried (fun op => ∃ id settlement, op = .settle hash id settlement)
      (rest ++ [.settle hash id settlement])
      ⟨_, ⟨id, settlement, rfl⟩, carries_concat_iff.2 (.inr ⟨rfl, haccepts⟩)⟩
  have hnone : ∀ other earlier, ¬ (store.ran (before ++ [.start info])).Carries between
      (.settle hash other earlier) := fun other earlier => hearlier _ ⟨other, earlier, rfl⟩
  rw [hops, hsince]
  rw [hsince] at hbegan
  obtain ⟨last, settled, hlast, rfl, hsettled⟩ :=
    settledAttempt?_ran (sound_ran hsound _) (fresh_of_began hsound hbegan) rfl hfirst hnone
      hbegan.not_restarted hbegan.not_removed
  rw [hops, hsince, ran_append_cons] at hget
  cases hlast.symm.trans hget
  rw [← ran_append_cons] at hfirst
  exact ⟨_, first, hsettled, rfl, before, info, between, later, rfl, hbegan, hfirst, hnone⟩

theorem step_settle (hsound : store.Sound) {id : UInt64} {settlement : Settlement}
    {reached : Store} (h : store.settle hash id settlement = .ok (payment, reached)) :
    ∃ current, store.get? hash = .ok current ∧
      Change hash (.settle hash id settlement) current payment ∧
      store.Accepts (.settle hash id settlement) ∧
      (store.step (.settle hash id settlement)).2.get? hash = .ok (some payment) := by
  obtain ⟨current, hget, htransition, _, _⟩ := update_eq_ok_iff.1 h
  have hchange := (settle_ok_iff hash id settlement current payment).1 htransition
  refine ⟨current, hget, hchange,
    (accepts_iff hsound.consistent rfl hget).2 ⟨payment, hchange⟩, ?_⟩
  rw [get?_step hsound.consistent _ hget, after_of_change hchange]

end Store

theorem Lifecycle.giveUpReason_of_settle {hash : PaymentHash} {id : UInt64}
    {settlement : Settlement} {current : Option Payment} {updated : Payment}
    (h : Change hash (.settle hash id settlement) current updated) :
    updated.giveUpReason = none := by
  cases h with
  | settle => rfl

theorem Payment.preimage?_of_settledAttempt? {payment : Payment} {attempt : Attempt}
    {settlement : Settlement} (hattempt : payment.settledAttempt? = some attempt)
    (houtcome : attempt.outcome = .settled settlement) :
    payment.preimage? = some settlement.preimage := by
  simp [preimage?, hattempt, Attempt.settlement?, houtcome]

namespace Sample

def lateMoves : List Move :=
  [.start "first" creation, firstRegister, .handOff "first", .control (.register hash shard),
    .control (.giveUp hash .timeout), .control (.settle hash 0 settlement)]

def late : Payment :=
  { (sharded.setOutcome 0 (.settled settlement)).recordSettle 0 with giveUpReason := none }

theorem get?_late : ((World.blank none).run lateMoves).store.get? hash = .ok (some late) := by
  have hreachable := World.reachable_step sent_reachable (.control (.register hash shard))
  have hshard : (sent.step (.control (.register hash shard))).store.get? hash =
      .ok (some sharded) := World.get?_of_change sent_reachable rfl get?_sent change_shard
  have hgivenUp := @World.get?_of_change _ (.control (.giveUp hash .timeout)) _ _ _ _ hreachable
    rfl hshard (.giveUp (by decide))
  exact @World.get?_of_change _ (.control (.settle hash 0 settlement)) _ _ _ _
    (World.reachable_step hreachable _) rfl hgivenUp
    (@Change.settle hash 0 settlement _ attempt rfl rfl)

end Sample

/-- Whatever senders and others did before, a sender that settles finds a payment that has
succeeded. The preimage that it sees belongs to the hash, and is with its time the one of the
settlement that came first since the payment was started. -/
theorem World.settle_shows_first (version : Option String) (moves : List Move) (sender : Sender)
    (now id : UInt64) (preimage : Preimage) (payment : Payment) (reached : Store)
    (hsettle : sender.settle ((blank version).run moves).store now id preimage =
      .ok (payment, reached)) :
    payment.status = .succeeded ∧ payment.giveUpReason = none ∧
      ∃ attempt first, payment.settledAttempt? = some attempt ∧
        attempt.outcome = .settled first ∧
        payment.preimage? = some first.preimage ∧ first.preimage.hash = sender.hash ∧
        Store.SettledFirst ⟨version, .empty⟩
          ((blank version).history moves ++ [.settle sender.hash id ⟨preimage, now⟩])
          sender.hash attempt.id first := by
  have hblank := Store.sound_blank version
  rw [store_run] at hsettle
  set ops := (blank version).history moves
  have hsound := Store.sound_ran hblank ops
  obtain ⟨current, hcurrent, hchange, haccepts, hafter⟩ := Store.step_settle hsound hsettle
  have hget : (Store.ran ⟨version, .empty⟩
      (ops ++ [.settle sender.hash id ⟨preimage, now⟩])).get? sender.hash = .ok (some payment) := by
    rw [Store.ran_concat]
    exact hafter
  have hpayment := (Store.sound_ran hblank _).payments _ _ hget
  obtain ⟨attempt, first, hsettled, houtcome, hfirst⟩ := Store.settledFirst_of_accepts hblank
    (Store.get?_blank version sender.hash) ops haccepts hget
  have hmem := Payment.mem_of_attempt? (Payment.settledAttempt?_eq_some_iff.1 hsettled).2.1
  refine ⟨?_, giveUpReason_of_settle hchange, attempt, first, hsettled, houtcome,
    Payment.preimage?_of_settledAttempt? hsettled houtcome,
    hpayment.preimage_hash attempt hmem first houtcome, hfirst⟩
  refine succeeded_of_settle (fun earlier hearlier => ?_) hchange
  subst hearlier
  exact hsound.payments _ _ hcurrent

theorem World.settle_shows_first_late : ∃ payment reached,
    (⟨Sample.hash, 2, .empty⟩ : Sender).settle ((blank none).run Sample.lateMoves).store
      1700000009 1 Sample.preimage = .ok (payment, reached) ∧
    payment.status = .succeeded ∧ payment.giveUpReason = none ∧
    Store.SettledFirst .empty ((blank none).history Sample.lateMoves ++
      [.settle Sample.hash 1 ⟨Sample.preimage, 1700000009⟩]) Sample.hash 0 Sample.settlement := by
  have hchange : Change Sample.hash (.settle Sample.hash 1 ⟨Sample.preimage, 1700000009⟩)
      (some Sample.late) _ := @Change.settle _ 1 _ _ Sample.shard rfl rfl
  have hsettle := Store.update_ok _ _ _ _ _ Sample.get?_late ((settle_ok_iff ..).2 hchange) rfl
  obtain ⟨hstatus, hreason, attempt, first, hattempt, houtcome, _, _, hfirst⟩ :=
    settle_shows_first none Sample.lateMoves ⟨Sample.hash, 2, .empty⟩ 1700000009 1
      Sample.preimage _ _ hsettle
  have hnamed : some (⟨Sample.attempt, .settled Sample.settlement⟩ : Attempt) = some attempt :=
    hattempt
  cases hnamed
  cases houtcome
  exact ⟨_, _, hsettle, hstatus, hreason, hfirst⟩

end Lightpay
