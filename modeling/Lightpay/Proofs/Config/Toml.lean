import Lightpay.Proofs.Config.Distinct
import Lightpay.Toml.Parser

/-! The tables of a TOML document have distinct names. Headers and assignments change one table
each, and all tables around it stay as distinct as they were. -/

namespace Lightpay

open Config (Distinct DistinctIn distinctIn_nil distinctIn_put distinct_cons distinct_reverse
  distinct_table_iff)

namespace Toml

/-- No table has two items with one name, however the table came about. -/
inductive Item.Distinct : Item → Prop
  | value {value : Config} (h : value.Distinct) : Distinct (.value value)
  | table {origin : Origin} {entries : Entries} (names : (entries.map (·.1)).Nodup)
    (values : ∀ entry ∈ entries, Distinct entry.2) : Distinct (.table origin entries)
  | tables {elements : List Entries} (names : ∀ entries ∈ elements, (entries.map (·.1)).Nodup)
    (values : ∀ entries ∈ elements, ∀ entry ∈ entries, Distinct entry.2) :
    Distinct (.tables elements)

theorem distinct_table {origin : Origin} {entries : Entries}
    (h : DistinctIn Item.Distinct entries) : Item.Distinct (.table origin entries) :=
  .table h.names h.values

theorem distinctIn_of_table {origin : Origin} {entries : Entries}
    (h : Item.Distinct (.table origin entries)) : DistinctIn Item.Distinct entries := by
  cases h with
  | table names values => exact ⟨names, values⟩

theorem distinct_tables_iff {elements : List Entries} :
    Item.Distinct (.tables elements) ↔ ∀ entries ∈ elements, DistinctIn Item.Distinct entries := by
  constructor
  · rintro (_ | _ | ⟨names, values⟩)
    exact fun entries hentries => ⟨names entries hentries, values entries hentries⟩
  · exact fun h => .tables (fun entries hentries => (h entries hentries).names)
      fun entries hentries => (h entries hentries).values

theorem configEntries_eq_map (entries : Entries) :
    configEntries entries = entries.map fun entry => (entry.1, entry.2.config) := by
  induction entries with
  | nil => rfl
  | cons entry entries ih => rw [configEntries, ih, List.map_cons]

theorem configTables_eq (done : List Config) (elements : List Entries) :
    configTables done elements =
      (elements.map fun entries => .table (configEntries entries)).reverse ++ done := by
  induction elements generalizing done with
  | nil => rfl
  | cons entries elements ih =>
    rw [configTables, ih, List.map_cons, List.reverse_cons, List.append_assoc, List.singleton_append]

theorem distinctIn_configEntries {entries : Entries} (names : (entries.map (·.1)).Nodup)
    (values : ∀ entry ∈ entries, entry.2.config.Distinct) :
    DistinctIn Distinct (configEntries entries) where
  names := by rwa [configEntries_eq_map, List.map_map]
  values := by
    intro entry hentry
    rw [configEntries_eq_map] at hentry
    obtain ⟨item, hitem, rfl⟩ := List.mem_map.1 hentry
    exact values item hitem

theorem distinct_config {item : Item} (h : item.Distinct) : item.config.Distinct := by
  induction h with
  | value h => exact h
  | table names _ ih => exact distinct_table_iff.2 (distinctIn_configEntries names ih)
  | tables names _ ih =>
    rw [Item.config, configTables_eq, List.append_nil]
    refine .list (distinct_reverse fun config hconfig => ?_)
    obtain ⟨entries, hentries, rfl⟩ := List.mem_map.1 hconfig
    exact distinct_table_iff.2 (distinctIn_configEntries (names _ hentries) (ih _ hentries))

namespace Entries

variable {origin : Origin} {f : Origin → Entries → Option Entries}

/-- A change of one table that keeps its names distinct keeps those of all tables around it. -/
theorem yields_change
    (hf : ∀ madeBy entries, DistinctIn Item.Distinct entries →
      Yields (f madeBy entries) (DistinctIn Item.Distinct))
    (path : List String) (madeBy : Origin) (entries : Entries)
    (h : DistinctIn Item.Distinct entries) :
    Yields (change origin f path madeBy entries) (DistinctIn Item.Distinct) := by
  induction path generalizing madeBy entries with
  | nil => exact hf madeBy entries h
  | cons name path ih =>
    have hput : ∀ item, Item.Distinct item →
        Yields (some (Config.put name item entries)) (DistinctIn Item.Distinct) :=
      fun item hitem => yields_some (distinctIn_put h hitem)
    rw [change]
    split
    · exact yields_bind (yields_map (ih origin [] distinctIn_nil) fun _ => distinct_table) hput
    · exact yields_none
    · exact yields_none
    · rename_i last earlier hlookup
      have hfound := distinct_tables_iff.1 (Config.good_of_lookup h hlookup)
      have hearlier := fun entries hentries => hfound entries (List.mem_cons_of_mem _ hentries)
      refine yields_bind (yields_map (ih .header last (hfound last List.mem_cons_self)) ?_) hput
      exact fun _ hlast => distinct_tables_iff.2 (List.forall_mem_cons.2 ⟨hlast, hearlier⟩)
    · rename_i madeBy found hlookup
      have hfound := distinctIn_of_table (Config.good_of_lookup h hlookup)
      split
      · exact yields_none
      · exact yields_bind (yields_map (ih madeBy found hfound) fun _ => distinct_table) hput

variable {entries : Entries}

theorem yields_assign (path : List String) (name : String) {value : Config} (h : DistinctIn Item.Distinct entries)
    (hvalue : value.Distinct) :
    Yields (assign path name value entries) (DistinctIn Item.Distinct) := by
  refine yields_change (fun madeBy found hfound => ?_) path .header entries h
  split
  · exact yields_none
  · exact yields_some (distinctIn_put hfound (.value hvalue))

theorem yields_openTable (path : List String) (name : String) (h : DistinctIn Item.Distinct entries) :
    Yields (openTable path name entries) (DistinctIn Item.Distinct) := by
  refine yields_change (fun madeBy found hfound => ?_) path .header entries h
  split
  · exact yields_some (distinctIn_put hfound (distinct_table distinctIn_nil))
  · rename_i inner hlookup
    have hinner := distinctIn_of_table (Config.good_of_lookup hfound hlookup)
    exact yields_some (distinctIn_put hfound (distinct_table hinner))
  · exact yields_none

theorem yields_appendTable (path : List String) (name : String) (h : DistinctIn Item.Distinct entries) :
    Yields (appendTable path name entries) (DistinctIn Item.Distinct) := by
  refine yields_change (fun madeBy found hfound => ?_) path .header entries h
  split
  · refine yields_some (distinctIn_put hfound (distinct_tables_iff.2 ?_))
    exact List.forall_mem_singleton.2 distinctIn_nil
  · rename_i elements hlookup
    have helements := distinct_tables_iff.1 (Config.good_of_lookup hfound hlookup)
    refine yields_some (distinctIn_put hfound (distinct_tables_iff.2 ?_))
    exact List.forall_mem_cons.2 ⟨distinctIn_nil, helements⟩
  · exact yields_none

theorem yields_assignIn (table path : List String) (name : String) {value : Config}
    (h : DistinctIn Item.Distinct entries) (hvalue : value.Distinct) :
    Yields (assignIn table path name value entries) (DistinctIn Item.Distinct) :=
  yields_change (fun _ _ hfound => yields_assign path name hfound hvalue) table .header entries h

end Entries

/-- With so much fuel, what is read has distinct names. -/
structure Reads (fuel : Nat) : Prop where
  value : ∀ depth cs, Yields (value fuel depth cs) fun found => found.1.Distinct
  items : ∀ depth done, (∀ item ∈ done, Distinct item) → ∀ cs,
    Yields (items fuel depth done cs) fun found => ∀ item ∈ found.1, item.Distinct
  members : ∀ depth done, DistinctIn Item.Distinct done → ∀ cs,
    Yields (members fuel depth done cs) fun found => DistinctIn Item.Distinct found.1

theorem reads (fuel : Nat) : Reads fuel := by
  induction fuel with
  | zero =>
    exact ⟨fun _ _ => yields_none, fun _ _ _ _ => yields_none, fun _ _ _ _ => yields_none⟩
  | succ fuel ih =>
    constructor
    case value =>
      intro depth cs
      unfold value
      dsimp only
      split
      · exact yields_none
      · exact yields_none
      · exact yields_map (ih.items _ [] nofun _) fun _ => .list
      · exact yields_map (ih.members _ [] distinctIn_nil _) fun _ h =>
          distinct_table_iff.2 (distinctIn_configEntries h.names fun entry hentry =>
            distinct_config (h.values entry hentry))
      · exact yields_map_any fun _ => .text _
    case items =>
      intro depth done hdone cs
      unfold items
      split
      · exact yields_some (distinct_reverse hdone)
      · split
        · exact yields_none
        · rename_i item rest hitem
          have hmore := distinct_cons (ih.value depth cs _ hitem) hdone
          split
          · exact ih.items depth _ hmore _
          · exact yields_some (distinct_reverse hmore)
          · exact yields_none
    case members =>
      intro depth done hdone cs
      unfold members
      split
      · exact yields_some hdone
      · split
        · exact yields_none
        · rename_i path name _ _
          split
          · split
            · exact yields_none
            · rename_i found _ hfound
              have hmore := Entries.yields_assign path name hdone (ih.value depth _ _ hfound)
              split
              · rename_i hassign _
                exact ih.members depth _ (hmore _ hassign) _
              · rename_i hassign _
                exact yields_some (hmore _ hassign)
              · exact yields_none
          · exact yields_none

namespace Document

variable {document : Document}

theorem yields_header (h : DistinctIn Item.Distinct document.root) (cs : List Char) :
    Yields (document.header cs) fun found => DistinctIn Item.Distinct found.1.root := by
  unfold header
  split
  · split
    · exact yields_map (Entries.yields_appendTable _ _ h) fun _ hroot => hroot
    · exact yields_none
  · split
    · exact yields_map (Entries.yields_openTable _ _ h) fun _ hroot => hroot
    · exact yields_none

theorem yields_assignment (h : DistinctIn Item.Distinct document.root) (fuel : Nat)
    (cs : List Char) :
    Yields (document.assignment fuel cs) fun found => DistinctIn Item.Distinct found.1.root := by
  unfold assignment
  split
  · exact yields_bind ((reads fuel).value _ _) fun _ hfound =>
      yields_bind (Entries.yields_assignIn _ _ _ h hfound) fun _ hroot => yields_some hroot
  · exact yields_none

theorem yields_lines (fuel : Nat) (document : Document) (cs : List Char)
    (h : DistinctIn Item.Distinct document.root) :
    Yields (lines fuel document cs) fun found => DistinctIn Item.Distinct found.root := by
  induction fuel generalizing document cs with
  | zero => exact yields_none
  | succ fuel ih =>
    unfold lines
    dsimp only
    split
    · exact yields_some h
    · exact ih _ _ h
    · exact yields_bind (yields_header h _) fun _ hfound =>
        yields_bind_any fun _ => ih _ _ hfound
    · exact yields_bind (yields_assignment h fuel _) fun _ hfound =>
        yields_bind_any fun _ => ih _ _ hfound

end Document

theorem yields_parse? (text : String) : Yields (parse? text) (DistinctIn Distinct) :=
  yields_map (Document.yields_lines _ ⟨[], []⟩ _ distinctIn_nil) fun _ h =>
    distinctIn_configEntries h.names fun entry hentry => distinct_config (h.values entry hentry)

end Toml

end Lightpay
