import Lightpay.Config.Reader
import Lightpay.Proofs.Config.Ron
import Lightpay.Proofs.Config.Toml

/-! Tables with distinct names are all that is read, in whatever format a configuration is written.
What a reader of nested values has done so far is as distinct as what it gives in the end. -/

namespace Lightpay

open Config (Distinct DistinctIn distinctIn_nil distinctIn_put distinct_cons distinct_reverse
  distinct_table_iff)

namespace Json

mutual

theorem yields_config? : ∀ (depth : Nat) (json : Json), Yields (config? depth json) Distinct
  | depth, .null => by
    rw [config?]
    exact yields_some .absent
  | depth, .bool b => by
    rw [config?]
    exact yields_some (.text _)
  | depth, .nat n => by
    rw [config?]
    exact yields_map_any fun _ => .text _
  | depth, .str s => by
    rw [config?]
    exact yields_some (.text s)
  | 0, .arr items => by
    rw [config?]
    exact yields_none
  | 0, .obj members => by
    rw [config?]
    exact yields_none
  | depth + 1, .arr items => by
    rw [config?]
    exact yields_map (yields_configItems? depth items) fun _ => .list
  | depth + 1, .obj members => by
    rw [config?]
    exact yields_map (yields_configMembers? depth [] distinctIn_nil members) fun _ =>
      distinct_table_iff.2
  | depth, .foreign text => by
    unfold config?
    split
    case h_9 | h_10 => exact yields_none
    case h_11 => exact yields_map_any fun _ => .text _
    all_goals contradiction

theorem yields_configItems? (depth : Nat) : ∀ items : List Json,
    Yields (configItems? depth items) fun found => ∀ item ∈ found, item.Distinct
  | [] => by
    rw [configItems?]
    exact yields_some nofun
  | item :: rest => by
    rw [configItems?]
    exact yields_bind (yields_config? depth item) fun found hfound =>
      yields_bind (yields_configItems? depth rest) fun others hothers =>
        yields_some (distinct_cons hfound hothers)

theorem yields_configMembers? (depth : Nat) (done : Config.Entries)
    (hdone : DistinctIn Distinct done) : ∀ members : List (String × Json),
    Yields (configMembers? depth done members) (DistinctIn Distinct)
  | [] => by
    rw [configMembers?]
    exact yields_some hdone
  | (name, value) :: rest => by
    rw [configMembers?]
    exact yields_bind (yields_config? depth value) fun found hfound =>
      yields_configMembers? depth _ (distinctIn_put hdone hfound) rest

end

theorem yields_entries? (text : String) : Yields (entries? text) (DistinctIn Distinct) :=
  yields_bind_any fun json => yields_bind (yields_config? greatestDepth json) fun found hfound => by
    split
    · exact yields_some (distinct_table_iff.1 hfound)
    · exact yields_none

end Json

namespace Yaml.Node

mutual

theorem yields_config? : ∀ node : Node, Yields node.config? Distinct
  | .invalid => yields_some .absent
  | .null => yields_some .absent
  | .bool _ => yields_some (.text _)
  | .integer _ => yields_some (.text _)
  | .fraction _ => yields_map_any fun _ => .text _
  | .text value => yields_some (.text value)
  | .list items => yields_map (yields_configItems? items) fun _ => .list
  | .table entries =>
    yields_map (yields_configEntries? [] distinctIn_nil entries) fun _ => distinct_table_iff.2

theorem yields_configItems? : ∀ items : List Node,
    Yields (configItems? items) fun found => ∀ item ∈ found, item.Distinct
  | [] => yields_some nofun
  | item :: rest =>
    yields_bind (yields_config? item) fun _ hfound =>
      yields_bind (yields_configItems? rest) fun _ hothers =>
        yields_some (distinct_cons hfound hothers)

theorem yields_configEntries? (done : Config.Entries) (hdone : DistinctIn Distinct done) :
    ∀ entries : List (Node × Node), Yields (configEntries? done entries) (DistinctIn Distinct)
  | [] => yields_some hdone
  | (_, value) :: rest =>
    yields_bind_any fun _ => yields_bind (yields_config? value) fun _ hfound =>
      yields_configEntries? _ (distinctIn_put hdone hfound) rest

end

end Yaml.Node

namespace Yaml

theorem yields_parse? (text : String) : Yields (parse? text) (DistinctIn Distinct) := by
  refine yields_bind_any fun node => ?_
  split
  · exact yields_some distinctIn_nil
  · rename_i found
    refine yields_bind (Node.yields_config? found) fun config hconfig => ?_
    split
    · exact yields_some (distinct_table_iff.1 hconfig)
    · exact yields_none

end Yaml

namespace Json5

/-- With so much fuel, what is read has distinct names. -/
structure Reads (fuel : Nat) : Prop where
  value : ∀ cs, Yields (value fuel cs) fun found => found.1.Distinct
  items : ∀ done, (∀ item ∈ done, Distinct item) → ∀ cs,
    Yields (items fuel done cs) fun found => ∀ item ∈ found.1, item.Distinct
  members : ∀ done, DistinctIn Distinct done → ∀ cs,
    Yields (members fuel done cs) fun found => DistinctIn Distinct found.1

theorem reads (fuel : Nat) : Reads fuel := by
  induction fuel with
  | zero => exact ⟨fun _ => yields_none, fun _ _ _ => yields_none, fun _ _ _ => yields_none⟩
  | succ fuel ih =>
    constructor
    case value =>
      intro cs
      unfold value
      dsimp only
      split
      · exact yields_some .absent
      · exact yields_some (.text _)
      · exact yields_some (.text _)
      · exact yields_map_any fun _ => .text _
      · exact yields_map_any fun _ => .text _
      · exact yields_bind_any fun rest =>
          yields_bind (ih.items [] nofun rest) fun _ h => yields_some (.list h)
      · exact yields_bind_any fun rest =>
          yields_bind (ih.members [] distinctIn_nil rest) fun _ h =>
            yields_some (distinct_table_iff.2 h)
      · exact yields_map_any fun _ => .text _
    case items =>
      intro done hdone cs
      unfold items
      dsimp only
      split
      · exact yields_some (distinct_reverse hdone)
      · refine yields_bind (ih.value _) fun (item, rest) hitem => yields_bind_any fun rest => ?_
        have hmore := distinct_cons hitem hdone
        split
        · exact yields_bind_any fun rest => ih.items _ hmore rest
        · exact yields_some (distinct_reverse hmore)
        · exact yields_none
    case members =>
      intro done hdone cs
      unfold members
      dsimp only
      split
      · exact yields_some hdone
      · refine yields_bind_any fun (name, rest) => yields_bind_any fun rest => ?_
        split
        · refine yields_bind_any fun rest => yields_bind (ih.value rest) fun (found, rest) hfound =>
            yields_bind_any fun rest => ?_
          have hmore : DistinctIn Distinct (Config.put name found done) :=
            distinctIn_put hdone hfound
          split
          · exact yields_bind_any fun rest => ih.members _ hmore rest
          · exact yields_some hmore
          · exact yields_none
        · exact yields_none

theorem yields_parse? (text : String) : Yields (parse? text) (DistinctIn Distinct) := by
  refine yields_bind_any fun cs => yields_bind ((reads _).value cs) fun (found, rest) hfound =>
    yields_bind_any fun rest => ?_
  split
  · exact yields_some (distinct_table_iff.1 hfound)
  · exact yields_none

end Json5

namespace Ini.Document

theorem distinctIn_assign {document : Document} (h : DistinctIn Distinct document.root)
    (name value : String) : DistinctIn Distinct (document.assign name value).root := by
  rw [assign]
  split
  · exact distinctIn_put h (.text value)
  · rename_i opened _
    have hopened := Config.distinctIn_entries (Config.distinct_lookup h opened)
    exact distinctIn_put h (distinct_table_iff.2 (distinctIn_put hopened (.text value)))

theorem yields_read (fuel : Nat) (start : Bool) (document : Document) (cs : List Char)
    (h : DistinctIn Distinct document.root) :
    Yields (read fuel start document cs) fun found => DistinctIn Distinct found.root := by
  induction fuel generalizing start document cs with
  | zero => exact yields_none
  | succ fuel ih =>
    unfold read
    split
    · contradiction
    · exact yields_some h
    · rename_i heq
      cases heq
      split
      · split
        · exact ih _ _ _ h
        · exact yields_none
      · split
        · split
          · exact ih _ _ _ (distinctIn_put h (.table List.nodup_nil nofun))
          · exact yields_none
        · split
          · exact ih _ _ _ (distinctIn_assign h _ _)
          · exact yields_none
          · split
            · exact ih _ _ _ h
            · exact yields_none

end Ini.Document

theorem Ini.yields_parse? (text : String) : Yields (parse? text) (DistinctIn Distinct) :=
  yields_map (Document.yields_read _ true ⟨[], none⟩ _ distinctIn_nil) fun _ h => h

/-- In whatever format a configuration is written, its tables have distinct names. -/
theorem Config.Format.yields_read? (format : Format) (text : String) :
    Yields (format.read? text) (DistinctIn Distinct) := by
  have hparse : ∀ text, Yields (format.parse? text) (DistinctIn Distinct) := by
    cases format with
    | toml => exact Toml.yields_parse?
    | json => exact Json.yields_entries?
    | yaml => exact Yaml.yields_parse?
    | ini => exact Ini.yields_parse?
    | ron => exact Ron.yields_parse?
    | json5 => exact Json5.yields_parse?
  unfold read?
  split <;> exact hparse _

/-- The settings are taken from a configuration whose names are distinct, whichever file and
variables it is made of. -/
theorem Operator.Settings.distinct_read (format : Config.Format) (text : String)
    (environment : List (String × String)) :
    Yields (format.read? text) fun entries =>
      (setVariables (setEntries (.table []) entries) environment).Distinct := by
  intro entries hread
  have hentries := Config.Format.yields_read? format text entries hread
  have hempty : Distinct (.table []) := distinct_table_iff.2 distinctIn_nil
  exact distinct_setVariables (distinct_setEntries hempty hentries.values) environment

end Lightpay
