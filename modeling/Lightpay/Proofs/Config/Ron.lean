import Lightpay.Proofs.Config.Distinct
import Lightpay.Ron.Parser

/-! The tables of a RON text have distinct names. The functions that read values call each other, so
what they give is proved at once, by induction on the fuel. -/

namespace Lightpay

open Config (Distinct DistinctIn distinctIn_nil distinctIn_put distinct_cons distinct_reverse
  distinct_table_iff)

namespace Ron

theorem distinct_numberText (digits : List Char) : (numberText digits).Distinct := .text _

theorem distinct_rangeFrom {start : Config.Entries} (h : DistinctIn Distinct start)
    (hend : "end" ∉ start.map (·.1)) (cs : List Char) : (rangeFrom start cs).1.Distinct := by
  unfold rangeFrom
  dsimp only
  split
  · refine .table ?_ (List.forall_mem_append.2 ⟨h.values, ?_⟩)
    · rw [List.map_append]
      exact h.names.append (List.nodup_singleton _) (List.disjoint_singleton.2 hend)
    · exact List.forall_mem_singleton.2 (distinct_numberText _)
  · exact .absent
  · exact distinct_table_iff.2 h

theorem yields_number? (cs : List Char) : Yields (number? cs) fun found => found.1.Distinct := by
  unfold number?
  split
  · exact yields_some (distinct_rangeFrom distinctIn_nil List.not_mem_nil _)
  · split
    · rename_i first rest _
      have hstart : DistinctIn Distinct [("start", numberText first)] :=
        ⟨List.nodup_singleton "start", List.forall_mem_singleton.2 (distinct_numberText first)⟩
      exact yields_some (distinct_rangeFrom hstart (by simp) rest)
    · exact yields_some (distinct_numberText _)
    · exact yields_none

theorem yields_scalar? (cs : List Char) : Yields (scalar? cs) fun found => found.1.Distinct := by
  unfold scalar?
  split
  · exact yields_some .absent
  · split
    · refine yields_some (.list fun item hitem => ?_)
      obtain ⟨byte, _, rfl⟩ := List.mem_map.1 hitem
      exact distinct_numberText _
    · exact yields_some (.text _)
    · exact yields_number? cs

/-- With so much fuel, what is read has distinct names. -/
structure Reads (unwraps : Bool) (fuel : Nat) : Prop where
  value : ∀ depth cs, Yields (value unwraps fuel depth cs) fun found => found.1.Distinct
  named : ∀ depth name cs, Yields (named unwraps fuel depth name cs) fun found => found.1.Distinct
  present : ∀ depth cs, Yields (present unwraps fuel depth cs) fun found => found.1.Distinct
  group : ∀ depth cs, Yields (group unwraps fuel depth cs) fun found => found.1.Distinct
  items : ∀ depth close done, (∀ item ∈ done, Distinct item) → ∀ cs,
    Yields (items unwraps fuel depth close done cs) fun found => ∀ item ∈ found.1, item.Distinct
  fields : ∀ depth done, DistinctIn Distinct done → ∀ cs,
    Yields (fields unwraps fuel depth done cs) fun found => DistinctIn Distinct found.1
  members : ∀ depth done, DistinctIn Distinct done → ∀ cs,
    Yields (members unwraps fuel depth done cs) fun found => DistinctIn Distinct found.1

variable {unwraps : Bool} {fuel : Nat}

theorem yields_value (h : Reads unwraps fuel) (depth : Nat) (cs : List Char) :
    Yields (value unwraps (fuel + 1) depth cs) fun found => found.1.Distinct := by
  unfold value
  split
  · rename_i hfound
    exact yields_some (yields_scalar? _ _ hfound)
  · exact yields_bind_any fun _ => h.group _ _
  · exact yields_bind_any fun _ => yields_bind (h.items _ _ [] nofun _) fun _ hfound =>
      yields_some (.list hfound)
  · exact yields_bind_any fun _ => yields_bind (h.members _ [] distinctIn_nil _) fun _ hfound =>
      yields_some (distinct_table_iff.2 hfound)
  · exact yields_bind_any fun _ => h.named _ _ _

theorem yields_named (h : Reads unwraps fuel) (depth : Nat) (name : Name) (cs : List Char) :
    Yields (named unwraps (fuel + 1) depth name cs) fun found => found.1.Distinct := by
  unfold named
  split
  · exact yields_some (.text _)
  · split
    · exact yields_some .absent
    · refine yields_bind_any fun _ => ?_
      split
      · refine yields_bind_any fun _ => ?_
        split
        · exact h.present _ _
        · exact h.group _ _
      · split
        · exact yields_none
        · exact yields_some .absent

theorem yields_present (h : Reads unwraps fuel) (depth : Nat) (cs : List Char) :
    Yields (present unwraps (fuel + 1) depth cs) fun found => found.1.Distinct := by
  unfold present
  dsimp only
  split
  · rename_i hfound
    obtain ⟨read, hread, hclosed⟩ := Option.bind_eq_some_iff.1 hfound
    have hvalue := h.value _ _ read hread
    obtain ⟨_, _, hclosed⟩ := Option.bind_eq_some_iff.1 hclosed
    split at hclosed
    · cases hclosed
      exact yields_some hvalue
    · cases hclosed
  · exact yields_some .absent
  · exact h.group _ _
  · exact yields_none

theorem yields_group (h : Reads unwraps fuel) (depth : Nat) (cs : List Char) :
    Yields (group unwraps (fuel + 1) depth cs) fun found => found.1.Distinct := by
  unfold group
  split
  · exact yields_bind (h.fields _ [] distinctIn_nil _) fun _ hfound =>
      yields_some (distinct_table_iff.2 hfound)
  · exact yields_bind (h.items _ _ [] nofun _) fun _ hfound => yields_some (.list hfound)

theorem yields_items (h : Reads unwraps fuel) (depth : Nat) (close : Char) {done : List Config}
    (hdone : ∀ item ∈ done, item.Distinct) (cs : List Char) :
    Yields (items unwraps (fuel + 1) depth close done cs) fun found =>
      ∀ item ∈ found.1, item.Distinct := by
  unfold items
  split
  · exact yields_some (distinct_reverse hdone)
  · split
    · exact yields_none
    · exact yields_bind (h.value _ cs) fun _ hitem => yields_bind_any fun _ =>
        h.items _ _ _ (distinct_cons hitem hdone) _

theorem yields_fields (h : Reads unwraps fuel) (depth : Nat) {done : Config.Entries}
    (hdone : DistinctIn Distinct done) (cs : List Char) :
    Yields (fields unwraps (fuel + 1) depth done cs) fun found =>
      DistinctIn Distinct found.1 := by
  unfold fields
  split
  · exact yields_some hdone
  · exact yields_none
  · exact yields_bind_any fun _ => yields_bind (h.value _ _) fun _ hfound => yields_bind_any fun _ =>
      h.fields _ _ (distinctIn_put hdone hfound) _

theorem yields_members (h : Reads unwraps fuel) (depth : Nat) {done : Config.Entries}
    (hdone : DistinctIn Distinct done) (cs : List Char) :
    Yields (members unwraps (fuel + 1) depth done cs) fun found =>
      DistinctIn Distinct found.1 := by
  unfold members
  split
  · exact yields_some hdone
  · exact yields_none
  · refine yields_bind_any fun _ => yields_bind_any fun _ => ?_
    split
    · exact yields_bind_any fun _ => yields_bind (h.value _ _) fun _ hfound =>
        yields_bind_any fun _ => h.members _ _ (distinctIn_put hdone hfound) _
    · exact yields_none

theorem reads (unwraps : Bool) (fuel : Nat) : Reads unwraps fuel := by
  induction fuel with
  | zero =>
    constructor <;> intros <;> exact yields_none
  | succ fuel ih =>
    exact ⟨yields_value ih, yields_named ih, yields_present ih, yields_group ih,
      fun depth close _ => yields_items ih depth close, fun depth _ => yields_fields ih depth,
      fun depth _ => yields_members ih depth⟩

theorem yields_parse? (text : String) : Yields (parse? text) (DistinctIn Distinct) := by
  refine yields_bind_any fun _ => yields_bind_any fun (extensions, cs) =>
    yields_bind ((reads _ _).value _ cs) fun (config, rest) hfound => yields_bind_any fun _ => ?_
  split
  · exact yields_some (distinct_table_iff.1 hfound)
  · exact yields_none

end Ron

end Lightpay
