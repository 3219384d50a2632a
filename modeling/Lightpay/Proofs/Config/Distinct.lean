import Lightpay.Operator.Settings
import Lightpay.Proofs.Result
import Mathlib.Data.List.Nodup

/-! Names in a table are distinct, however deep the table stands. Values set at places and tables
joined to others keep it so, and what a table says does not hang on the order of its entries. -/

namespace Lightpay

namespace Config

/-- No two entries have one name, and all of them have good values. -/
structure DistinctIn {α : Type} (Good : α → Prop) (entries : List (String × α)) : Prop where
  names : (entries.map (·.1)).Nodup
  values : ∀ entry ∈ entries, Good entry.2

/-- No table in the configuration has two entries with one name. -/
inductive Distinct : Config → Prop
  | absent : Distinct .absent
  | text (value : String) : Distinct (.text value)
  | list {items : List Config} (h : ∀ item ∈ items, Distinct item) : Distinct (.list items)
  | table {entries : Entries} (names : (entries.map (·.1)).Nodup)
    (values : ∀ entry ∈ entries, Distinct entry.2) : Distinct (.table entries)

section Entries

variable {α : Type} {Good : α → Prop} {entries other : List (String × α)} {name : String}
  {value : α}

theorem distinctIn_nil : DistinctIn Good [] := ⟨List.nodup_nil, nofun⟩

theorem names_put (name : String) (value : α) (entries : List (String × α)) :
    (put name value entries).map (·.1) =
      if name ∈ entries.map (·.1) then entries.map (·.1) else entries.map (·.1) ++ [name] := by
  induction entries with
  | nil => rfl
  | cons entry entries ih =>
    rw [put]
    by_cases hname : entry.1 = name
    · simp [hname]
    · rw [if_neg hname, List.map_cons, ih]
      have hmem : name ∈ (entry :: entries).map (·.1) ↔ name ∈ entries.map (·.1) := by
        simp [Ne.symm hname]
      by_cases hin : name ∈ entries.map (·.1)
      · rw [if_pos hin, if_pos (hmem.2 hin), List.map_cons]
      · rw [if_neg hin, if_neg (mt hmem.1 hin), List.map_cons, List.cons_append]

theorem mem_put {entry : String × α} (h : entry ∈ put name value entries) :
    entry = (name, value) ∨ entry ∈ entries := by
  induction entries with
  | nil => exact .inl (List.mem_singleton.1 h)
  | cons first entries ih =>
    rw [put] at h
    split at h
    · exact (List.mem_cons.1 h).imp_right (List.mem_cons_of_mem _)
    · rcases List.mem_cons.1 h with rfl | hrest
      · exact .inr List.mem_cons_self
      · exact (ih hrest).imp_right (List.mem_cons_of_mem _)

theorem distinctIn_put (h : DistinctIn Good entries) (hvalue : Good value) :
    DistinctIn Good (put name value entries) where
  names := by
    rw [names_put]
    split
    · exact h.names
    · rename_i hnew
      exact h.names.append (List.nodup_singleton name) (List.disjoint_singleton.2 hnew)
  values entry hentry := by
    rcases mem_put hentry with rfl | hold
    · exact hvalue
    · exact h.values entry hold

theorem lookup_eq_some_iff (h : (entries.map (·.1)).Nodup) :
    entries.lookup name = some value ↔ (name, value) ∈ entries := by
  induction entries with
  | nil => exact iff_of_false nofun nofun
  | cons entry entries ih =>
    obtain ⟨key, found⟩ := entry
    rw [List.map_cons, List.nodup_cons] at h
    rw [List.lookup_cons]
    by_cases hkey : name = key
    · subst hkey
      -- The first entry has the name, so no other has it.
      have hrest : (name, value) ∉ entries := fun hmem =>
        h.1 (List.mem_map.2 ⟨_, hmem, rfl⟩)
      simp [hrest, eq_comm]
    · simp [hkey, beq_false_of_ne, ih h.2]

theorem good_of_lookup (h : DistinctIn Good entries) (hlookup : entries.lookup name = some value) :
    Good value :=
  h.values (name, value) ((lookup_eq_some_iff h.names).1 hlookup)

/-- Tables with the same entries say the same, in whatever order. -/
theorem lookup_of_perm (h : (entries.map (·.1)).Nodup) (hperm : entries.Perm other) :
    other.lookup name = entries.lookup name := by
  have hother : (other.map (·.1)).Nodup := (hperm.map (·.1)).nodup_iff.1 h
  refine Option.ext fun value => ?_
  rw [lookup_eq_some_iff h, lookup_eq_some_iff hother]
  exact hperm.mem_iff.symm

end Entries

variable {config value : Config} {entries : Entries} {items : List Config} {name : String}

theorem distinct_reverse {done : List Config} (h : ∀ item ∈ done, item.Distinct) :
    ∀ item ∈ done.reverse, item.Distinct := fun item hitem => h item (List.mem_reverse.1 hitem)

theorem distinct_cons {item : Config} {done : List Config} (hitem : item.Distinct)
    (h : ∀ item ∈ done, item.Distinct) : ∀ other ∈ item :: done, other.Distinct :=
  List.forall_mem_cons.2 ⟨hitem, h⟩

theorem distinct_table_iff : Distinct (.table entries) ↔ DistinctIn Distinct entries := by
  constructor
  · rintro (_ | _ | _ | ⟨hnames, hvalues⟩)
    exact ⟨hnames, hvalues⟩
  · exact fun h => .table h.names h.values

theorem distinct_items (h : config.Distinct) : ∀ item ∈ config.items, item.Distinct := by
  cases h with
  | list h => exact h
  | _ => exact nofun

theorem distinctIn_entries (h : config.Distinct) : DistinctIn Distinct config.entries := by
  cases h with
  | table hnames hvalues => exact ⟨hnames, hvalues⟩
  | _ => exact distinctIn_nil

theorem distinct_lookup (h : DistinctIn Distinct entries) (name : String) :
    ((entries.lookup name).getD .absent).Distinct := by
  cases hlookup : entries.lookup name with
  | none => exact .absent
  | some found => exact good_of_lookup h hlookup

mutual

theorem distinct_merge (old : Config) (hold : old.Distinct) :
    ∀ value : Config, value.Distinct → (old.merge value).Distinct
  | .absent, _ => .absent
  | .text value, _ => .text value
  | .list _, h => h
  | .table entries, h =>
    distinct_table_iff.2 (distinctIn_mergeEntries _ (distinctIn_entries hold) entries
      (distinct_table_iff.1 h).values)

theorem distinctIn_mergeEntries (old : Entries) (hold : DistinctIn Distinct old) :
    ∀ entries : Entries, (∀ entry ∈ entries, entry.2.Distinct) →
      DistinctIn Distinct (mergeEntries old entries)
  | [], _ => hold
  | (_, value) :: rest, h =>
    distinctIn_mergeEntries _
      (distinctIn_put hold (distinct_merge _ (distinct_lookup hold _) value
        (h _ List.mem_cons_self)))
      rest fun entry hentry => h entry (List.mem_cons_of_mem _ hentry)

end

namespace Place

theorem distinct_reach (h : ∀ item ∈ items, item.Distinct) (index : Int) :
    ∀ item ∈ (reach items index).1, item.Distinct := by
  intro item hitem
  rw [reach] at hitem
  split at hitem
  · rcases List.mem_append.1 hitem with hold | hgap
    · exact h item hold
    · exact List.eq_of_mem_replicate hgap ▸ .absent
  · rcases List.mem_append.1 hitem with hgap | hold
    · exact List.eq_of_mem_replicate hgap ▸ .absent
    · exact h item hold

theorem distinct_change {f : Config → Config}
    (hf : ∀ config : Config, config.Distinct → (f config).Distinct) (place : Place)
    (h : config.Distinct) : (change f place config).Distinct := by
  induction place generalizing config with
  | nil => exact hf config h
  | cons step place ih =>
    cases step with
    | name name =>
      have hentries := distinctIn_entries h
      exact distinct_table_iff.2 (distinctIn_put hentries (ih (distinct_lookup hentries name)))
    | item index =>
      refine .list fun item hitem => ?_
      have hreach := distinct_reach (distinct_items h) index
      obtain ⟨position, hposition, rfl⟩ := List.mem_iff_getElem.1 hitem
      rw [List.getElem_modify]
      split
      · exact ih (hreach _ (List.getElem_mem _))
      · exact hreach _ (List.getElem_mem _)

end Place

theorem distinct_set (h : config.Distinct) (place : Place) (hvalue : value.Distinct) :
    (config.set place value).Distinct :=
  Place.distinct_change (fun old hold => distinct_merge old hold value hvalue) place h

end Config

namespace Operator.Settings

open Config

/-- The order of the sections has no meaning. -/
theorem ofConfig?_of_perm {entries other : Entries} (h : (entries.map (·.1)).Nodup)
    (hperm : entries.Perm other) : ofConfig? (.table other) = ofConfig? (.table entries) := by
  simp only [ofConfig?, section?, Config.entries, lookup_of_perm h hperm]

theorem distinct_setEntries {config : Config} {entries : Entries} (h : config.Distinct)
    (hentries : ∀ entry ∈ entries, entry.2.Distinct) : (setEntries config entries).Distinct := by
  induction entries generalizing config with
  | nil => exact h
  | cons entry entries ih =>
    exact ih (distinct_set h _ (hentries entry List.mem_cons_self))
      fun other hother => hentries other (List.mem_cons_of_mem _ hother)

theorem distinct_setVariables {config : Config} (h : config.Distinct)
    (environment : List (String × String)) : (setVariables config environment).Distinct := by
  induction environment generalizing config with
  | nil => exact h
  | cons entry environment ih =>
    apply ih
    dsimp only
    split
    · exact distinct_set h _ (.text _)
    · exact h

end Operator.Settings

end Lightpay
