import Lightpay.Proofs.Store.Transaction

/-! Transactions over stores of any content, also of texts that are no payments and of payments
that stand under other hashes than their own. A refused transaction changes no text. One that is
carried out writes one text, or removes those that it selects. -/

namespace Lightpay.Store

/-- What a transaction finds under the hash: nothing, or the payment that the text spells. -/
inductive Holds (store : Store) (hash : PaymentHash) : Option Payment → Prop
  | nothing (htext : store.payments.get? hash = none) : Holds store hash none
  | payment {text : String} {payment : Payment} (htext : store.payments.get? hash = some text)
      (hparse : Payment.parse? text = some payment) : Holds store hash (some payment)

/-- The text under the hash is no payment. -/
def Unreadable (store : Store) (hash : PaymentHash) : Prop :=
  ∃ text, store.payments.get? hash = some text ∧ Payment.parse? text = none

variable {store reached : Store} {hash : PaymentHash} {transition : Transition}
  {current : Option Payment} {payments : List Payment} {selects : Payment → Bool} {e : Error}

theorem readPayment_eq_ok_iff {text : String} {payment : Payment} :
    readPayment text = .ok payment ↔ Payment.parse? text = some payment := by
  rw [readPayment]
  cases Payment.parse? text <;> simp

theorem readPayment_eq_error_iff {text : String} :
    readPayment text = .error e ↔ Payment.parse? text = none ∧ e = .unreadable := by
  rw [readPayment]
  cases Payment.parse? text <;> simp [eq_comm]

theorem get?_eq_ok_iff : store.get? hash = .ok current ↔ store.Holds hash current := by
  rw [get?]
  constructor
  · intro h
    cases htext : store.payments.get? hash with
    | none =>
      rw [htext] at h
      cases h
      exact .nothing htext
    | some text =>
      rw [htext] at h
      obtain ⟨payment, hread, rfl⟩ := map_eq_ok_iff.1 h
      exact .payment htext (readPayment_eq_ok_iff.1 hread)
  · rintro (htext | ⟨htext, hparse⟩)
    · rw [htext]
    · rw [htext]
      exact map_eq_ok_iff.2 ⟨_, readPayment_eq_ok_iff.2 hparse, rfl⟩

theorem get?_eq_error_iff :
    store.get? hash = .error e ↔ store.Unreadable hash ∧ e = .unreadable := by
  rw [get?, Unreadable]
  cases store.payments.get? hash with
  | none => simp
  | some text =>
    dsimp only
    rw [map_eq_error_iff, readPayment_eq_error_iff]
    simp

theorem update_of_unreadable (h : store.Unreadable hash) (transition : Transition) :
    store.update hash transition = .error .unreadable :=
  update_eq_error_iff.2 (.inl (get?_eq_error_iff.2 ⟨h, rfl⟩))

theorem update_of_holds (h : store.Holds hash current) {other : Transition}
    (hsame : other current = transition current) :
    store.update hash other = store.update hash transition := by
  rw [update, update, get?_eq_ok_iff.2 h]
  change (other current >>= _) = (transition current >>= _)
  rw [hsame]

/-- What one transaction under a hash comes to. -/
structure Transacts (store : Store) (hash : PaymentHash) (transition : Transition) : Prop where
  refused : ∀ e, store.update hash transition = .error e ↔
    store.Unreadable hash ∧ e = .unreadable ∨ ∃ current, store.Holds hash current ∧
      (transition current = .error e ∨ ∃ updated, transition current = .ok updated ∧
        updated.info.hash ≠ hash ∧ e = .mismatchedKey hash)
  unchanged : ∀ e, store.update hash transition = .error e →
    store.committed (store.update hash transition) = store
  unasked : store.Unreadable hash → ∀ other, store.update hash other = store.update hash transition
  asked : ∀ current, store.Holds hash current → ∀ other : Transition,
    other current = transition current → store.update hash other = store.update hash transition
  written : ∀ updated reached, store.update hash transition = .ok (updated, reached) →
    updated.info.hash = hash ∧ (∃ current, store.Holds hash current ∧
      transition current = .ok updated) ∧
    reached.payments.get? hash = some updated.text ∧ reached.get? hash = .ok (some updated) ∧
    ∀ other ≠ hash, reached.payments.get? other = store.payments.get? other

theorem transacts (store : Store) (hash : PaymentHash) (transition : Transition) :
    store.Transacts hash transition := by
  constructor
  case refused =>
    intro e
    simp only [update_eq_error_iff, get?_eq_error_iff, get?_eq_ok_iff]
  case unchanged =>
    intro e h
    rw [h, committed]
  case unasked =>
    intro hunreadable other
    rw [update_of_unreadable hunreadable, update_of_unreadable hunreadable]
  case asked => exact fun current hholds other => update_of_holds hholds
  case written =>
    intro updated reached h
    obtain ⟨current, hget, hok, hhash, rfl⟩ := update_eq_ok_iff.1 h
    refine ⟨hhash, ⟨current, get?_eq_ok_iff.1 hget, hok⟩, ?_, ?_, fun other hother => ?_⟩
    · rw [put, Table.get?_insert, if_pos rfl]
    · rw [get?_put, if_pos rfl]
    · rw [put, Table.get?_insert, if_neg hother.symm]

theorem holds_iff_mem {payment : Payment} : store.Holds hash (some payment) ↔
    ∃ text, ⟨hash, text⟩ ∈ store.payments.entries ∧ Payment.parse? text = some payment := by
  constructor
  · rintro ⟨⟩
    rename_i text htext hparse
    exact ⟨text, Table.get?_eq_some_iff.1 htext, hparse⟩
  · rintro ⟨text, hmem, hparse⟩
    exact .payment (Table.get?_eq_some_iff.2 hmem) hparse

theorem unreadable_iff_mem : store.Unreadable hash ↔
    ∃ text, ⟨hash, text⟩ ∈ store.payments.entries ∧ Payment.parse? text = none := by
  simp only [Unreadable, Table.get?_eq_some_iff]

theorem mapM_cases {read : α → Except ε β} (items : List α) :
    (∃ values, items.mapM read = .ok values ∧
      ∀ item ∈ items, ∃ value, read item = .ok value) ∨
    ∃ e, items.mapM read = .error e ∧ ∃ item ∈ items, read item = .error e := by
  induction items with
  | nil => exact .inl ⟨[], rfl, nofun⟩
  | cons item items ih =>
    rw [List.mapM_cons]
    cases hread : read item with
    | error e => exact .inr ⟨e, rfl, item, List.mem_cons_self, hread⟩
    | ok value =>
      rcases ih with ⟨values, hvalues, hall⟩ | ⟨e, herror, other, hmem, hother⟩
      · refine .inl ⟨value :: values, ?_, List.forall_mem_cons.2 ⟨⟨value, hread⟩, hall⟩⟩
        rw [hvalues]
        rfl
      · refine .inr ⟨e, ?_, other, List.mem_cons_of_mem _ hmem, hother⟩
        rw [herror]
        rfl

theorem all_eq_error_iff :
    store.all = .error e ↔ (∃ hash, store.Unreadable hash) ∧ e = .unreadable := by
  rw [all]
  rcases @mapM_cases _ _ _ (fun entry : Entry => readPayment entry.text) store.payments.entries with
    ⟨payments, hall, hread⟩ | ⟨fault, herror, entry, hmem, hread⟩
  · rw [hall]
    refine iff_of_false nofun ?_
    rintro ⟨⟨hash, hunreadable⟩, -⟩
    obtain ⟨text, hmem, hparse⟩ := unreadable_iff_mem.1 hunreadable
    obtain ⟨payment, hpayment⟩ := hread _ hmem
    cases hparse.symm.trans (readPayment_eq_ok_iff.1 hpayment)
  · obtain ⟨hparse, rfl⟩ := readPayment_eq_error_iff.1 hread
    rw [herror, Except.error.injEq, eq_comm]
    exact (and_iff_right ⟨entry.key, unreadable_iff_mem.2 ⟨entry.text, hmem, hparse⟩⟩).symm

theorem all_eq_ok_iff : store.all = .ok payments ↔
    store.payments.entries.map (fun entry => Payment.parse? entry.text) = payments.map some := by
  rw [all]
  induction store.payments.entries generalizing payments with
  | nil => cases payments <;> simp [pure, Except.pure]
  | cons entry entries ih =>
    rw [List.mapM_cons, bind_eq_ok_iff]
    simp only [readPayment_eq_ok_iff, bind_eq_ok_iff, ih, List.map_cons]
    cases payments <;> simp [pure, Except.pure]

theorem map_filter_selected (h : store.all = .ok payments) (selects : Payment → Bool) :
    (store.payments.entries.filter (Entry.selected selects)).map
      (fun entry => Payment.parse? entry.text) = (payments.filter selects).map some := by
  have hselected : Entry.selected selects =
      (·.any selects) ∘ fun entry : Entry => Payment.parse? entry.text := by
    funext entry
    simp only [Entry.selected, Function.comp]
    cases Payment.parse? entry.text <;> rfl
  rw [hselected, ← List.filter_map, all_eq_ok_iff.1 h, List.filter_map]
  rfl

theorem length_filter_all (h : store.all = .ok payments) (selects : Payment → Bool) :
    (payments.filter selects).length =
      (store.payments.entries.filter (Entry.selected selects)).length := by
  simpa using (congrArg List.length (map_filter_selected h selects)).symm

theorem remove_eq_error_iff : store.remove selects = .error e ↔ store.all = .error e := by
  rw [remove, bind_eq_error_iff]
  refine or_iff_left ?_
  rintro ⟨payments, -, h⟩
  cases h

theorem remove_eq_ok_iff {n : Nat} : store.remove selects = .ok (n, reached) ↔
    ∃ payments, store.all = .ok payments ∧ n = (payments.filter selects).length ∧
      reached = store.without selects := by
  rw [remove, bind_eq_ok_iff]
  refine exists_congr fun payments => and_congr_right fun _ => ?_
  constructor
  · rintro ⟨⟩
    exact ⟨rfl, rfl⟩
  · rintro ⟨rfl, rfl⟩
    rfl

/-- The hashes whose payments are selected. -/
def selectedHashes (store : Store) (selects : Payment → Bool) : List PaymentHash :=
  (store.payments.entries.filter (Entry.selected selects)).map (·.key)

theorem nodup_selectedHashes (store : Store) (selects : Payment → Bool) :
    (store.selectedHashes selects).Nodup := by
  rw [selectedHashes, List.Nodup, List.pairwise_map]
  refine (store.payments.ordered.filter _).imp ?_
  intro left right hless heq
  rw [heq] at hless
  exact Table.key_irrefl _ hless

theorem mem_selectedHashes_iff_text : hash ∈ store.selectedHashes selects ↔
    ∃ text, store.payments.get? hash = some text ∧ Entry.selected selects ⟨hash, text⟩ := by
  simp only [selectedHashes, List.mem_map, List.mem_filter, Table.get?_eq_some_iff]
  constructor
  · rintro ⟨entry, hentry, rfl⟩
    exact ⟨entry.text, hentry⟩
  · rintro ⟨text, hentry⟩
    exact ⟨⟨hash, text⟩, hentry, rfl⟩

theorem mem_selectedHashes_iff : hash ∈ store.selectedHashes selects ↔
    ∃ payment, store.Holds hash (some payment) ∧ selects payment := by
  rw [mem_selectedHashes_iff_text]
  constructor
  · rintro ⟨text, htext, hselected⟩
    rw [Entry.selected] at hselected
    cases hparse : Payment.parse? text with
    | none => simp [hparse] at hselected
    | some payment =>
      rw [hparse] at hselected
      exact ⟨payment, .payment htext hparse, hselected⟩
  · rintro ⟨payment, hholds, hselects⟩
    obtain ⟨text, hmem, hparse⟩ := holds_iff_mem.1 hholds
    refine ⟨text, Table.get?_eq_some_iff.2 hmem, ?_⟩
    rw [Entry.selected, hparse]
    exact hselects

theorem text_without (store : Store) (selects : Payment → Bool) (hash : PaymentHash) :
    (store.without selects).payments.get? hash =
      if hash ∈ store.selectedHashes selects then none else store.payments.get? hash := by
  simp only [without, Table.get?_filter, mem_selectedHashes_iff_text]
  cases store.payments.get? hash with
  | none => simp
  | some text => cases hselected : Entry.selected selects ⟨hash, text⟩ <;> simp [hselected]

/-- What one removal comes to. -/
structure Clears (store : Store) (selects : Payment → Bool) : Prop where
  refused : ∀ e, store.remove selects = .error e ↔
    (∃ hash, store.Unreadable hash) ∧ e = .unreadable
  unchanged : ∀ e, store.remove selects = .error e →
    store.committed (store.remove selects) = store
  removed : ∀ n reached, store.remove selects = .ok (n, reached) →
    ∃ hashes : List PaymentHash, hashes.Nodup ∧ hashes.length = n ∧
      (∀ hash, hash ∈ hashes ↔ ∃ payment, store.Holds hash (some payment) ∧ selects payment) ∧
      ∀ hash, reached.payments.get? hash =
        if hash ∈ hashes then none else store.payments.get? hash

theorem clears (store : Store) (selects : Payment → Bool) : store.Clears selects := by
  constructor
  case refused => exact fun e => remove_eq_error_iff.trans all_eq_error_iff
  case unchanged =>
    intro e h
    rw [h, committed]
  case removed =>
    intro n reached h
    obtain ⟨payments, hall, rfl, rfl⟩ := remove_eq_ok_iff.1 h
    refine ⟨store.selectedHashes selects, store.nodup_selectedHashes selects, ?_,
      fun hash => mem_selectedHashes_iff, store.text_without selects⟩
    rw [selectedHashes, List.length_map, length_filter_all hall]

/-- Whatever the stored texts are, transactions and removals are carried out as a whole and on
nothing but their own, or not at all. -/
theorem all_or_nothing (store : Store) :
    (∀ hash transition, store.Transacts hash transition) ∧ ∀ selects, store.Clears selects :=
  ⟨store.transacts, store.clears⟩

end Lightpay.Store
