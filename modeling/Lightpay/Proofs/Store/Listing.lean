import Lightpay.Proofs.Lifecycle.Run
import Lightpay.Proofs.Store.Atomicity
import Mathlib.Data.List.Basic

/-! The ways to look at a store. What is listed is what is found under each hash, what is listed as
in flight has that status, and a deletion leaves what was listed as in flight. -/

namespace Lightpay.Store

variable {store : Store} {payments : List Payment} {payment : Payment} {hash : PaymentHash}

theorem fetch_eq_ok_iff :
    store.fetch hash = .ok payment ↔ store.get? hash = .ok (some payment) := by
  rw [fetch, bind_eq_ok_iff]
  constructor
  · rintro ⟨_ | found, hget, h⟩
    · cases h
    · cases h
      exact hget
  · exact fun hget => ⟨some payment, hget, rfl⟩

theorem fetch_of_nothing (h : store.get? hash = .ok none) :
    store.fetch hash = .error .notInitiated := by
  rw [fetch, h]
  rfl

theorem status_of_nothing (h : store.get? hash = .ok none) : store.status hash = .ok .unknown := by
  rw [status, h]
  rfl

theorem status_of_payment (h : store.get? hash = .ok (some payment)) :
    store.status hash = .ok payment.status := by
  rw [status, h]
  rfl

theorem hash_of_get? (hconsistent : store.Consistent) (h : store.get? hash = .ok (some payment)) :
    payment.info.hash = hash := by
  obtain ⟨current, hget, hhash⟩ := hconsistent hash
  cases h.symm.trans hget
  exact hhash payment rfl

theorem status_eq_unknown_iff (hconsistent : store.Consistent) (hash : PaymentHash) :
    store.status hash = .ok .unknown ↔ store.fetch hash = .error .notInitiated := by
  obtain ⟨_ | payment, hget, _⟩ := hconsistent hash
  · exact iff_of_true (status_of_nothing hget) (fetch_of_nothing hget)
  · rw [status_of_payment hget, fetch_eq_ok_iff.2 hget]
    simp [Lifecycle.status_ne_unknown]

theorem status_of_fetch (hconsistent : store.Consistent)
    (hfetch : store.fetch hash ≠ .error .notInitiated) :
    ∃ payment, store.fetch hash = .ok payment ∧ store.status hash = .ok payment.status := by
  obtain ⟨_ | payment, hget, _⟩ := hconsistent hash
  · exact absurd (fetch_of_nothing hget) hfetch
  · exact ⟨payment, fetch_eq_ok_iff.2 hget, status_of_payment hget⟩

theorem get?_of_mem_entries {entry : Entry} (hentry : entry ∈ store.payments.entries)
    (hparse : Payment.parse? entry.text = some payment) :
    store.get? entry.key = .ok (some payment) :=
  get?_eq_ok_iff.2 (holds_iff_mem.2 ⟨entry.text, hentry, hparse⟩)

theorem mem_all_iff (hconsistent : store.Consistent) (hall : store.all = .ok payments) :
    payment ∈ payments ↔ store.get? payment.info.hash = .ok (some payment) := by
  have hmem : payment ∈ payments ↔ some payment ∈ payments.map some := by simp
  rw [hmem, ← all_eq_ok_iff.1 hall, List.mem_map]
  constructor
  · rintro ⟨entry, hentry, hparse⟩
    have hget := get?_of_mem_entries hentry hparse
    rwa [hash_of_get? hconsistent hget]
  · intro hget
    obtain ⟨text, hentry, hparse⟩ := holds_iff_mem.1 (get?_eq_ok_iff.1 hget)
    exact ⟨_, hentry, hparse⟩

theorem parse?_of_mem_entries (hall : store.all = .ok payments) {entry : Entry}
    (hentry : entry ∈ store.payments.entries) :
    ∃ payment ∈ payments, Payment.parse? entry.text = some payment := by
  have hparsed : Payment.parse? entry.text ∈ payments.map some :=
    all_eq_ok_iff.1 hall ▸ List.mem_map_of_mem hentry
  obtain ⟨payment, hmem, hparse⟩ := List.mem_map.1 hparsed
  exact ⟨payment, hmem, hparse.symm⟩

/-- Payments stand under their own hashes, so the hashes of a list are the keys of the table. -/
theorem hashes_all (hconsistent : store.Consistent) (hall : store.all = .ok payments) :
    payments.map (·.info.hash) = store.payments.entries.map (·.key) := by
  have hkey : ∀ entry ∈ store.payments.entries,
      some entry.key = (Payment.parse? entry.text).map (·.info.hash) := by
    intro entry hentry
    obtain ⟨payment, _, hparse⟩ := parse?_of_mem_entries hall hentry
    have hget := get?_of_mem_entries hentry hparse
    rw [hparse, Option.map_some, hash_of_get? hconsistent hget]
  apply List.map_injective_iff.2 fun _ _ => Option.some.inj
  calc (payments.map (·.info.hash)).map some
      = (payments.map some).map (·.map (·.info.hash)) := by simp [Function.comp_def]
    _ = store.payments.entries.map
          (fun entry => (Payment.parse? entry.text).map (·.info.hash)) := by
        rw [← all_eq_ok_iff.1 hall, List.map_map]
        rfl
    _ = (store.payments.entries.map (·.key)).map some := by
        rw [List.map_map]
        exact (List.map_congr_left hkey).symm

theorem ordered_all (hconsistent : store.Consistent) (hall : store.all = .ok payments) :
    payments.Pairwise (·.info.hash < ·.info.hash) := by
  have hordered := List.pairwise_map.2 store.payments.ordered
  rw [← hashes_all hconsistent hall, List.pairwise_map] at hordered
  exact hordered

theorem all_without (hall : store.all = .ok payments) (selects : Payment → Bool) :
    (store.without selects).all = .ok (payments.filter fun payment => ¬ selects payment) := by
  rw [all_eq_ok_iff, ← map_filter_selected hall]
  congr 1
  refine List.filter_congr fun entry hentry => ?_
  obtain ⟨payment, _, hparse⟩ := parse?_of_mem_entries hall hentry
  simp [Entry.selected, hparse]

theorem without_eq_self {selects : Payment → Bool} (hall : store.all = .ok payments)
    (hnone : ∀ payment ∈ payments, ¬ selects payment) : store.without selects = store := by
  have hentries : store.payments.entries.filter (fun entry => ¬ entry.selected selects) =
      store.payments.entries := by
    refine List.filter_eq_self.2 fun entry hentry => ?_
    obtain ⟨payment, hmem, hparse⟩ := parse?_of_mem_entries hall hentry
    simpa [Entry.selected, hparse] using hnone payment hmem
  obtain ⟨version, entries, hordered⟩ := store
  simpa [without, Table.filter] using hentries

theorem all_remaining (hall : store.all = .ok payments) :
    (store.without (·.status ≠ .inFlight)).all = .ok (payments.filter (·.status = .inFlight)) := by
  simpa using all_without hall (·.status ≠ .inFlight)

theorem deleteResolved_eq (hall : store.all = .ok payments) :
    store.deleteResolved =
      .ok (payments.length - (payments.filter (·.status = .inFlight)).length,
        store.without (·.status ≠ .inFlight)) := by
  refine remove_eq_ok_iff.2 ⟨payments, hall, ?_, rfl⟩
  rw [payments.length_eq_length_filter_add (·.status = .inFlight), Nat.add_sub_cancel_left]
  simp only [decide_not]

theorem deleteResolved_of_inFlight (hall : store.all = .ok payments)
    (hinFlight : ∀ payment ∈ payments, payment.status = .inFlight) :
    store.deleteResolved = .ok (0, store) := by
  have hnone : ∀ payment ∈ payments, ¬ decide (payment.status ≠ .inFlight) := by
    simpa using hinFlight
  refine remove_eq_ok_iff.2 ⟨payments, hall, ?_, (without_eq_self hall hnone).symm⟩
  rw [List.filter_eq_nil_iff.2 hnone, List.length_nil]

/-- What is stored, seen in every way: `payments` are all of them, `inFlight` those in flight, and
`remaining` is the store after a deletion. -/
structure Views (store : Store) (payments inFlight : List Payment) (remaining : Store) : Prop where
  all : store.all = .ok payments
  ordered : payments.Pairwise (·.info.hash < ·.info.hash)
  mem_iff : ∀ payment, payment ∈ payments ↔ store.fetch payment.info.hash = .ok payment
  unknown_iff : ∀ hash, store.status hash = .ok .unknown ↔ store.fetch hash = .error .notInitiated
  status : ∀ hash, store.fetch hash ≠ .error .notInitiated → ∃ payment,
    store.fetch hash = .ok payment ∧ store.status hash = .ok payment.status
  allInFlight : store.allInFlight = .ok inFlight
  sublist : inFlight.Sublist payments
  mem_inFlight_iff : ∀ payment, payment ∈ inFlight ↔
    payment ∈ payments ∧ store.status payment.info.hash = .ok .inFlight
  deleted : store.deleteResolved = .ok (payments.length - inFlight.length, remaining)
  kept : remaining.all = .ok inFlight
  deletedAgain : remaining.deleteResolved = .ok (0, remaining)

theorem exists_views (hconsistent : store.Consistent) :
    ∃ payments inFlight remaining, store.Views payments inFlight remaining := by
  obtain ⟨payments, hall⟩ := all_ok store (readable_of_consistent hconsistent)
  refine ⟨payments, payments.filter (·.status = .inFlight),
    store.without (·.status ≠ .inFlight), ?_⟩
  constructor
  case all => exact hall
  case ordered => exact ordered_all hconsistent hall
  case mem_iff =>
    intro payment
    rw [fetch_eq_ok_iff, mem_all_iff hconsistent hall]
  case unknown_iff => exact status_eq_unknown_iff hconsistent
  case status => exact fun hash => status_of_fetch hconsistent
  case allInFlight =>
    rw [allInFlight, hall]
    rfl
  case sublist => exact List.filter_sublist
  case mem_inFlight_iff =>
    intro payment
    rw [List.mem_filter, decide_eq_true_iff]
    refine and_congr_right fun hpayment => ?_
    rw [status_of_payment ((mem_all_iff hconsistent hall).1 hpayment), Except.ok.injEq]
  case deleted => exact deleteResolved_eq hall
  case kept => exact all_remaining hall
  case deletedAgain => exact deleteResolved_of_inFlight (all_remaining hall) (by simp)

end Lightpay.Store
