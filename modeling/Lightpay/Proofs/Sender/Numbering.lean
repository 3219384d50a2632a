import Lightpay.Proofs.Sender.Dispatch
import Lightpay.Proofs.Sender.Launch

/-! How senders number attempts. The number that a sender takes up is above every stored id, so it
is the one that the sender before it would have given next, as long as no one else registered an
attempt. What happens to attempts besides does not matter: an outcome keeps the id. -/

namespace Lightpay

open Lifecycle

instance instLawfulOrderMaxUInt64 : Std.LawfulOrderMax UInt64 where
  max_eq_or a b := by
    rw [UInt64.max_def]
    split <;> simp
  max_le_iff a b c := by
    rw [UInt64.max_def]
    split <;> simp_all only [UInt64.le_iff_toNat_le] <;> omega

namespace Payment

/-- The id that comes after all the stored ones. -/
def nextId (payment : Payment) : UInt64 :=
  match payment.lastId? with
  | some id => id + 1
  | none => 0

/-- There is an id after every stored one. -/
def Numberable (payment : Payment) : Prop :=
  ∀ attempt ∈ payment.attempts, attempt.id.toNat < UInt64.size - 1

variable {payment updated : Payment} {attempt : Attempt}

theorem lt_succ_of_le {id last : UInt64} (hlast : last.toNat < UInt64.size - 1)
    (hle : id ≤ last) : id < last + 1 := by
  have hnext : (last + 1).toNat = last.toNat + 1 := by
    rw [UInt64.toNat_add]
    exact Nat.mod_eq_of_lt (Nat.add_lt_of_lt_sub hlast)
  rw [UInt64.lt_iff_toNat_lt, hnext]
  exact Nat.lt_succ_of_le (UInt64.le_iff_toNat_le.1 hle)

theorem id_lt_nextId (h : payment.Numberable) (hmem : attempt ∈ payment.attempts) :
    attempt.id < payment.nextId := by
  have hid : attempt.id ∈ payment.attempts.map (·.id) := List.mem_map_of_mem hmem
  rw [nextId]
  cases hlast : payment.lastId? with
  | none =>
    rw [lastId?, List.max?_eq_none_iff] at hlast
    rw [hlast] at hid
    cases hid
  | some id =>
    obtain ⟨hlastMem, hle⟩ := List.max?_eq_some_iff.1 hlast
    obtain ⟨last, hlastAttempt, rfl⟩ := List.mem_map.1 hlastMem
    exact lt_succ_of_le (h last hlastAttempt) (hle _ hid)

theorem nextId_congr (h : updated.attempts.map (·.id) = payment.attempts.map (·.id)) :
    updated.nextId = payment.nextId := by
  rw [nextId, nextId, lastId?, lastId?, h]

theorem numberable_congr (h : updated.attempts.map (·.id) = payment.attempts.map (·.id))
    (hupdated : updated.Numberable) : payment.Numberable := by
  intro attempt hmem
  have hid : attempt.id ∈ updated.attempts.map (·.id) := h ▸ List.mem_map_of_mem hmem
  obtain ⟨other, hother, hsame⟩ := List.mem_map.1 hid
  exact hsame ▸ hupdated other hother

theorem nextId_append (h : (payment.append attempt).Numberable)
    (hid : attempt.id = payment.nextId) :
    (payment.append attempt).nextId = attempt.id + 1 := by
  have hbefore : payment.Numberable := fun other hother =>
    h other ((mem_append ..).2 (.inl hother))
  have hlast : (payment.append attempt).lastId? = some attempt.id := by
    refine List.max?_eq_some_iff.2 ⟨?_, fun id hmem => ?_⟩
    · exact List.mem_map_of_mem ((mem_append ..).2 (.inr rfl))
    · obtain ⟨other, hother, rfl⟩ := List.mem_map.1 hmem
      rcases (mem_append ..).1 hother with hold | rfl
      · exact UInt64.le_of_lt (hid ▸ id_lt_nextId hbefore hold)
      · exact UInt64.le_refl _
  rw [nextId, hlast]

theorem attempt?_nextId (h : payment.Numberable) : payment.attempt? payment.nextId = none := by
  rw [attempt?_eq_none_iff]
  intro hmem
  obtain ⟨attempt, hattempt, hid⟩ := List.mem_map.1 hmem
  have hlt := id_lt_nextId h hattempt
  rw [hid] at hlt
  exact UInt64.lt_irrefl _ hlt

end Payment

namespace Lifecycle

theorem ids_of_change {hash : PaymentHash} {op : Op} {payment updated : Payment}
    (h : Change hash op (some payment) updated) (hstart : ∀ creation, op ≠ .start creation)
    (hregister : ∀ info, op ≠ .register hash info) :
    updated.attempts.map (·.id) = payment.attempts.map (·.id) := by
  cases h with
  | startAgain => exact absurd rfl (hstart _)
  | register => exact absurd rfl (hregister _)
  | @failAttempt id failure => exact payment.map_id_setOutcome id (.failed failure)
  | giveUp => rfl
  | @settle id settlement => exact payment.map_id_setOutcome id (.settled settlement)

end Lifecycle

namespace Store

variable {before middle after store : Store} {hash : PaymentHash}

/-- What is stored under the hash in the end was there before, with the same attempts but for
their outcomes. -/
def KeepsIds (before after : Store) (hash : PaymentHash) : Prop :=
  ∀ updated, after.get? hash = .ok (some updated) →
    ∃ payment, before.get? hash = .ok (some payment) ∧
      updated.attempts.map (·.id) = payment.attempts.map (·.id)

theorem keepsIds_of_get? (h : after.get? hash = before.get? hash ∨ after.get? hash = .ok none) :
    before.KeepsIds after hash := by
  intro updated hupdated
  rcases h with hsame | hnone
  · exact ⟨updated, hsame.symm.trans hupdated, rfl⟩
  · cases hnone.symm.trans hupdated

theorem keepsIds_trans (hfirst : before.KeepsIds middle hash)
    (hsecond : middle.KeepsIds after hash) : before.KeepsIds after hash := by
  intro updated hupdated
  obtain ⟨payment, hpayment, hids⟩ := hsecond updated hupdated
  obtain ⟨original, horiginal, hold⟩ := hfirst payment hpayment
  exact ⟨original, horiginal, hids.trans hold⟩

theorem keepsIds_step {op : Op}
    (hstart : ∀ creation : CreationInfo, creation.hash = hash → op = .start creation →
      ¬ store.Accepts op)
    (hregister : ∀ info, op = .register hash info → ¬ store.Accepts op) :
    store.KeepsIds (store.step op).2 hash := by
  rcases get?_step_cases store op hash with
    hsame | hnone | ⟨current, changed, hget, h, haccepts, hchanged⟩
  · exact keepsIds_of_get? (.inl hsame)
  · exact keepsIds_of_get? (.inr hnone)
  · have hnoStart : ∀ creation, op ≠ .start creation := by
      rintro creation rfl
      refine hstart creation ?_ rfl haccepts
      cases h with
      | startFirst hhash => exact hhash
      | startAgain hhash => exact hhash
    have hnoRegister : ∀ info, op ≠ .register hash info := fun info hop =>
      hregister info hop haccepts
    intro updated hupdated
    cases hchanged.symm.trans hupdated
    cases current with
    | none =>
      cases h with
      | startFirst => exact absurd rfl (hnoStart _)
    | some payment => exact ⟨payment, hget, ids_of_change h hnoStart hnoRegister⟩

theorem keepsIds_ran (ops : List Op)
    (hstart : ∀ creation : CreationInfo, creation.hash = hash →
      ¬ store.Carries ops (.start creation))
    (hregister : ∀ info, ¬ store.Carries ops (.register hash info)) :
    store.KeepsIds (store.ran ops) hash := by
  induction ops generalizing store with
  | nil => exact keepsIds_of_get? (.inl rfl)
  | cons op ops ih =>
    refine keepsIds_trans (keepsIds_step ?_ ?_) (ih ?_ ?_)
    · rintro creation hhash rfl haccepts
      exact hstart creation hhash ⟨[], ops, rfl, haccepts⟩
    · rintro info rfl haccepts
      exact hregister info ⟨[], ops, rfl, haccepts⟩
    · intro creation hhash hcarries
      exact hstart creation hhash (carries_append_right [op] hcarries)
    · intro info hcarries
      exact hregister info (carries_append_right [op] hcarries)

end Store

namespace Sender

variable {store : Store} {hash : PaymentHash} {payment : Payment}

theorem resume_of_inFlight (hget : store.get? hash = .ok (some payment))
    (hinFlight : payment.status = .inFlight) :
    resume store hash = .ok ⟨hash, payment.nextId, .empty⟩ := by
  simp only [resume, Store.fetch, hget, hinFlight, bind, Except.bind, pure, Except.pure]
  rfl

theorem payment_of_resume {sender : Sender} (h : resume store hash = .ok sender) :
    ∃ payment, store.get? hash = .ok (some payment) ∧ payment.status = .inFlight ∧
      sender = ⟨hash, payment.nextId, .empty⟩ := by
  obtain ⟨payment, hfetch, h⟩ := bind_eq_ok_iff.1 h
  obtain ⟨current, hget, hfetch⟩ := bind_eq_ok_iff.1 hfetch
  cases current with
  | none => cases hfetch
  | some found =>
    cases hfetch
    refine ⟨payment, hget, ?_⟩
    cases hstatus : payment.status with
    | unknown => exact absurd hstatus (status_ne_unknown payment)
    | inFlight =>
      rw [hstatus] at h
      cases h
      exact ⟨rfl, rfl⟩
    | succeeded =>
      rw [hstatus] at h
      cases h
    | failed =>
      rw [hstatus] at h
      cases h

/-- The sender gives the next number that it would give had it just taken up the payment. -/
def Numbered (sender : Sender) (store : Store) : Prop :=
  ∀ payment, store.get? sender.hash = .ok (some payment) → payment.Numberable →
    sender.nextId = payment.nextId

variable {sender : Sender} {reached : Store}

theorem numbered_of_keepsIds (h : sender.Numbered store)
    (hkeeps : store.KeepsIds reached sender.hash) : sender.Numbered reached := by
  intro updated hupdated hnumberable
  obtain ⟨payment, hpayment, hids⟩ := hkeeps updated hupdated
  rw [Payment.nextId_congr hids]
  exact h payment hpayment (Payment.numberable_congr hids hnumberable)

theorem numbered_of_start {info : CreationInfo} (h : start store info = .ok (sender, reached)) :
    sender.hash = info.hash ∧ sender.Numbered reached := by
  obtain ⟨started, hstart, hsender⟩ := map_eq_ok_iff.1 h
  obtain ⟨⟨payment, stored⟩, hupdate, rfl⟩ := map_eq_ok_iff.1 hstart
  cases hsender
  obtain ⟨current, _, hok, _, rfl⟩ := Store.update_eq_ok_iff.1 hupdate
  have hfresh : payment = .fresh info := by
    cases (start_ok_iff _ info current payment rfl).1 hok <;> rfl
  refine ⟨rfl, fun found hfound _ => ?_⟩
  rw [Store.get?_put, if_pos rfl, hfresh] at hfound
  cases hfound
  rfl

theorem numbered_of_resume (h : resume store hash = .ok sender) :
    sender.hash = hash ∧ sender.Numbered store := by
  obtain ⟨payment, hget, _, rfl⟩ := payment_of_resume h
  refine ⟨rfl, fun found hfound _ => ?_⟩
  cases hget.symm.trans hfound
  rfl

/-- A launch counts on by one exactly if the attempt is stored, as long as nothing else adds or
removes attempts meanwhile. -/
theorem numbered_launch {now later : UInt64} {network : AttemptInfo → Script} {route : Route}
    {sessionKey : SecretKey} (hundo : sender.undo = .empty) (h : sender.Numbered store)
    (hkeeps : ∀ payment registered,
      store.register sender.hash ⟨sender.nextId, sessionKey, route, now⟩ =
        .ok (payment, registered) →
      registered.KeepsIds (sender.launch store now later network route sessionKey).store
        sender.hash) :
    (sender.launch store now later network route sessionKey).sender.hash = sender.hash ∧
      (sender.launch store now later network route sessionKey).sender.Numbered
        (sender.launch store now later network route sessionKey).store := by
  cases hregister : store.register sender.hash ⟨sender.nextId, sessionKey, route, now⟩ with
  | error e =>
    rw [launch_of_refused hregister]
    exact ⟨rfl, h⟩
  | ok done =>
    obtain ⟨appended, registered⟩ := done
    have hkept := hkeeps appended registered hregister
    have hlaunched : (sender.launch store now later network route sessionKey).sender =
        ⟨sender.hash, sender.nextId + 1, .empty⟩ := by
      rw [launch_of_registered hundo rfl hregister]
    rw [hlaunched]
    refine ⟨rfl, numbered_of_keepsIds ?_ hkept⟩
    -- The new attempt has the greatest id, and the sender counts on from it as well.
    obtain ⟨current, hget, hok, _, rfl⟩ := Store.update_eq_ok_iff.1 hregister
    intro found hfound hnumberable
    rw [Store.get?_put, if_pos rfl] at hfound
    cases hfound
    cases (register_ok_iff sender.hash _ _ _).1 hok with
    | @register _ payment =>
      have hnext : sender.nextId = payment.nextId := h payment hget fun attempt hattempt =>
        hnumberable attempt ((Payment.mem_append ..).2 (.inl hattempt))
      exact (Payment.nextId_append hnumberable hnext).symm

theorem lt_nextId_of_registered {info : AttemptInfo} {appended : Payment} {ops : List Op}
    (hregister : store.register hash info = .ok (appended, reached))
    (hstart : ∀ creation : CreationInfo, creation.hash = hash →
      ¬ reached.Carries ops (.start creation))
    (hget : (reached.ran ops).get? hash = .ok (some payment)) (hnumberable : payment.Numberable) :
    info.id < payment.nextId := by
  have huses := Store.uses_of_registered ⟨_, _, Store.apply_register hregister⟩
  rw [Store.step_register hregister] at huses
  obtain ⟨attempt, hattempt, hid⟩ :=
    List.mem_map.1 (Store.uses_ran ops huses hstart payment hget)
  exact hid ▸ Payment.id_lt_nextId hnumberable hattempt

theorem handedOff_of_resumed (hget : store.get? hash = .ok (some payment))
    (hhash : payment.info.hash = hash) (hinFlight : payment.status = .inFlight)
    (hnumberable : payment.Numberable) (now later : UInt64) (network : AttemptInfo → Script)
    (route : Route) (sessionKey : SecretKey) :
    (launch ⟨hash, payment.nextId, .empty⟩ store now later network route sessionKey).handedOff =
      some ⟨payment.nextId, sessionKey, route, now⟩ := by
  let resumed : Sender := ⟨hash, payment.nextId, .empty⟩
  let info : AttemptInfo := ⟨payment.nextId, sessionKey, route, now⟩
  have hundo : resumed.undo = .empty := rfl
  have hinfo : info = ⟨resumed.nextId, sessionKey, route, now⟩ := rfl
  have hnew : payment.attempt? info.id = none := Payment.attempt?_nextId hnumberable
  have hok := (register_ok_iff hash info _ _).2 (.register hinFlight hnew)
  have hregister : store.register resumed.hash info = .ok (payment.append ⟨info, .pending⟩,
      store.put hash (payment.append ⟨info, .pending⟩)) :=
    Store.update_ok store hash _ _ _ hget hok hhash
  rw [launch_of_registered hundo hinfo hregister]

end Sender

end Lightpay
