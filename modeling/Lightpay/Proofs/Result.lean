/-! Results of steps that can be refused, taken apart: what a sequence of steps gives is what its
last step gives after all the others went well, and it is as good as they are. Besides, what stands
under a name. -/

namespace Lightpay

variable {α β ε δ : Type} {result : Except ε α}

theorem bind_eq_ok_iff {next : α → Except ε β} {b : β} :
    result >>= next = .ok b ↔ ∃ a, result = .ok a ∧ next a = .ok b := by
  cases result <;> simp [bind, Except.bind]

theorem bind_eq_error_iff {next : α → Except ε β} {e : ε} :
    result >>= next = .error e ↔
      result = .error e ∨ ∃ a, result = .ok a ∧ next a = .error e := by
  cases result <;> simp [bind, Except.bind]

theorem map_eq_ok_iff {f : α → β} {b : β} :
    result.map f = .ok b ↔ ∃ a, result = .ok a ∧ f a = b := by
  cases result <;> simp [Except.map]

theorem map_eq_error_iff {f : α → β} {e : ε} : result.map f = .error e ↔ result = .error e := by
  cases result <;> simp [Except.map]

theorem mapError_eq_ok_iff {f : ε → δ} {a : α} : result.mapError f = .ok a ↔ result = .ok a := by
  cases result with
  | error e => exact iff_of_false nofun nofun
  | ok b =>
    change Except.ok b = Except.ok a ↔ _
    rw [Except.ok.injEq, Except.ok.injEq]

theorem mapError_eq_error_iff {f : ε → δ} {d : δ} :
    result.mapError f = .error d ↔ ∃ e, result = .error e ∧ f e = d := by
  cases result with
  | error e =>
    change Except.error (f e) = Except.error d ↔ _
    simp
  | ok a => exact iff_of_false nofun nofun

theorem lookup_cons_eq (entries : List (String × α)) (name other : String) (value : α) :
    ((name, value) :: entries).lookup other =
      if other = name then some value else entries.lookup other := by
  rw [List.lookup_cons]
  by_cases hother : other = name <;> simp [hother, beq_false_of_ne]

/-- What the result holds, if there is one, is good. -/
def Yields (result : Option α) (Good : α → Prop) : Prop :=
  ∀ a, result = some a → Good a

variable {Good : α → Prop} {Known : β → Prop} {given : Option β}

theorem yields_none : Yields none Good := nofun

theorem yields_some {a : α} (h : Good a) : Yields (some a) Good := by
  rintro _ ⟨⟩
  exact h

theorem yields_bind {next : β → Option α} (hgiven : Yields given Known)
    (h : ∀ b, Known b → Yields (next b) Good) : Yields (given >>= next) Good := by
  intro a ha
  obtain ⟨b, hb, hnext⟩ := Option.bind_eq_some_iff.1 ha
  exact h b (hgiven b hb) a hnext

theorem yields_bind_any {next : β → Option α} (h : ∀ b, Yields (next b) Good) :
    Yields (given >>= next) Good :=
  yields_bind (fun _ _ => trivial) fun b (_ : True) => h b

theorem yields_map {f : β → α} (hgiven : Yields given Known) (h : ∀ b, Known b → Good (f b)) :
    Yields (given.map f) Good := by
  intro a ha
  obtain ⟨b, hb, rfl⟩ := Option.map_eq_some_iff.1 ha
  exact h b (hgiven b hb)

theorem yields_map_any {f : β → α} (h : ∀ b, Good (f b)) : Yields (given.map f) Good :=
  yields_map (fun _ _ => trivial) fun b (_ : True) => h b

end Lightpay
