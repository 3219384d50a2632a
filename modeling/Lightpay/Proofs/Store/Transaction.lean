import Lightpay.Proofs.Result
import Lightpay.Proofs.Store.Table
import Lightpay.Proofs.Text.Record
import Lightpay.Store.Basic

/-! Transactions as seen through the payments under each hash. Texts are mentioned
here for the last time: a stored payment is read back as it is, so a transaction
on one hash replaces what is read there and nothing else. -/

namespace Lightpay.Store

/-- Every stored text is a payment. -/
def Readable (store : Store) : Prop := ∀ hash, ∃ found, store.get? hash = .ok found

def put (store : Store) (hash : PaymentHash) (payment : Payment) : Store :=
  { store with payments := store.payments.insert hash payment.text }

/-- The store without the payments that are selected. -/
def without (store : Store) (selects : Payment → Bool) : Store :=
  { store with payments := store.payments.filter fun entry => ¬ entry.selected selects }

theorem get?_blank (version : Option String) (hash : PaymentHash) :
    get? ⟨version, .empty⟩ hash = .ok none := rfl

theorem get?_put (store : Store) (hash other : PaymentHash) (payment : Payment) :
    (store.put hash payment).get? other =
      if hash = other then .ok (some payment) else store.get? other := by
  rw [get?, put, Table.get?_insert]
  by_cases h : hash = other
  · simp [h, readPayment, Except.map]
  · rw [if_neg h, if_neg h]
    rfl

theorem get?_without (store : Store) (selects : Payment → Bool) (hash : PaymentHash)
    (found : Option Payment) (h : store.get? hash = .ok found) :
    (store.without selects).get? hash = .ok (found.filter fun payment => ¬ selects payment) := by
  rw [get?] at h ⊢
  rw [without, Table.get?_filter]
  cases htext : store.payments.get? hash with
  | none =>
    rw [htext] at h
    cases h
    rfl
  | some text =>
    rw [htext] at h
    cases hparse : Payment.parse? text with
    | none => simp [readPayment, hparse, Except.map] at h
    | some payment =>
      simp only [readPayment, hparse, Except.map, Except.ok.injEq] at h
      subst h
      cases hselects : selects payment <;>
        simp [Option.filter, Entry.selected, readPayment, hparse, hselects, Except.map]

theorem update_error (store : Store) (hash : PaymentHash) (transition : Transition)
    (current : Option Payment) (e : Error) (hget : store.get? hash = .ok current)
    (herror : transition current = .error e) : store.update hash transition = .error e := by
  simp only [update, hget, herror, bind, Except.bind]

theorem update_ok (store : Store) (hash : PaymentHash) (transition : Transition)
    (current : Option Payment) (payment : Payment) (hget : store.get? hash = .ok current)
    (hok : transition current = .ok payment) (hhash : payment.info.hash = hash) :
    store.update hash transition = .ok (payment, store.put hash payment) := by
  simp [update, hget, hok, hhash, bind, Except.bind, pure, Except.pure, put]

theorem update_eq_ok_iff {store reached : Store} {hash : PaymentHash} {transition : Transition}
    {updated : Payment} :
    store.update hash transition = .ok (updated, reached) ↔
      ∃ current, store.get? hash = .ok current ∧ transition current = .ok updated ∧
        updated.info.hash = hash ∧ reached = store.put hash updated := by
  constructor
  · intro h
    obtain ⟨current, hget, h⟩ := bind_eq_ok_iff.1 h
    obtain ⟨other, hother, h⟩ := bind_eq_ok_iff.1 h
    by_cases hhash : other.info.hash = hash
    · rw [if_neg (not_not.2 hhash)] at h
      cases h
      exact ⟨current, hget, hother, hhash, rfl⟩
    · rw [if_pos hhash] at h
      cases h
  · rintro ⟨current, hget, hok, hhash, rfl⟩
    exact update_ok store hash transition current updated hget hok hhash

theorem update_eq_error_iff {store : Store} {hash : PaymentHash} {transition : Transition}
    {e : Error} :
    store.update hash transition = .error e ↔
      store.get? hash = .error e ∨ ∃ current, store.get? hash = .ok current ∧
        (transition current = .error e ∨ ∃ updated, transition current = .ok updated ∧
          updated.info.hash ≠ hash ∧ e = .mismatchedKey hash) := by
  rw [update, bind_eq_error_iff]
  refine or_congr_right (exists_congr fun current => and_congr_right fun _ => ?_)
  rw [bind_eq_error_iff]
  refine or_congr_right (exists_congr fun updated => and_congr_right fun _ => ?_)
  by_cases hhash : updated.info.hash = hash
  · rw [if_neg (not_not.2 hhash)]
    exact iff_of_false nofun fun h => h.1 hhash
  · rw [if_pos hhash]
    constructor
    · rintro ⟨⟩
      exact ⟨hhash, rfl⟩
    · rintro ⟨_, rfl⟩
      rfl

theorem get?_without_cases (store : Store) (selects : Payment → Bool) (hash : PaymentHash) :
    (store.without selects).get? hash = store.get? hash ∨
      (store.without selects).get? hash = .ok none := by
  rw [get?, get?, without, Table.get?_filter]
  cases store.payments.get? hash with
  | none => exact .inl rfl
  | some text =>
    by_cases hkept : ¬ Entry.selected selects ⟨hash, text⟩
    · rw [Option.filter_some, if_pos (by simpa using hkept)]
      exact .inl rfl
    · rw [Option.filter_some, if_neg (by simpa using hkept)]
      exact .inr rfl

theorem mapM_ok {read : α → Except ε β} (items : List α)
    (h : ∀ item ∈ items, ∃ value, read item = .ok value) :
    ∃ values, items.mapM read = .ok values := by
  induction items with
  | nil => exact ⟨[], rfl⟩
  | cons item items ih =>
    obtain ⟨value, hvalue⟩ := h item List.mem_cons_self
    obtain ⟨values, hvalues⟩ := ih fun other hother => h other (List.mem_cons_of_mem _ hother)
    refine ⟨value :: values, ?_⟩
    rw [List.mapM_cons, hvalue]
    simp only [bind, Except.bind, hvalues, pure, Except.pure]

theorem all_ok (store : Store) (h : store.Readable) : ∃ payments, store.all = .ok payments := by
  apply mapM_ok
  intro entry hentry
  have htext : store.payments.get? entry.key = some entry.text :=
    Table.get?_eq_some_iff.2 hentry
  obtain ⟨found, hfound⟩ := h entry.key
  rw [get?, htext] at hfound
  cases hpayment : readPayment entry.text with
  | error e => simp [hpayment, Except.map] at hfound
  | ok payment => exact ⟨payment, rfl⟩

theorem remove_ok (store : Store) (selects : Payment → Bool) (h : store.Readable) :
    ∃ n, store.remove selects = .ok (n, store.without selects) := by
  obtain ⟨payments, hall⟩ := all_ok store h
  refine ⟨(payments.filter selects).length, ?_⟩
  simp only [remove, hall, bind, Except.bind, pure, Except.pure, without]

end Lightpay.Store
