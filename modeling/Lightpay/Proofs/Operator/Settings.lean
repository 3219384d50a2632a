import Lightpay.Operator.Settings
import Lightpay.Proofs.Result

/-! Where the settings come from. A variable of the environment wins over the file and over the
variables before it, whatever the file says and in whatever format it is written. -/

namespace Lightpay

namespace Config

theorem lookup_put (name other : String) (value : Config) (entries : Entries) :
    (put name value entries).lookup other =
      if other = name then some value else entries.lookup other := by
  induction entries with
  | nil => exact lookup_cons_eq [] name other value
  | cons entry entries ih =>
    obtain ⟨key, old⟩ := entry
    rw [put]
    by_cases hkey : key = name
    · rw [if_pos hkey, lookup_cons_eq, lookup_cons_eq, hkey]
      split <;> rfl
    · rw [if_neg hkey, lookup_cons_eq, lookup_cons_eq, ih]
      by_cases hother : other = key
      · rw [if_pos hother, if_pos hother, if_neg (hother ▸ hkey)]
      · rw [if_neg hother, if_neg hother]

theorem lookup_set_of_ne {name other : String} (config : Config) (rest : Place) (value : Config)
    (hother : other ≠ name) :
    (config.set (.name name :: rest) value).entries.lookup other = config.entries.lookup other :=
  (lookup_put name other _ config.entries).trans (if_neg hother)

theorem lookup_set_text (config : Config) (table name text : String) :
    ∃ entries, (config.set [.name table, .name name] (.text text)).entries.lookup table =
        some (.table entries) ∧
      entries.lookup name = some (.text text) := by
  refine ⟨_, (lookup_put table table _ config.entries).trans (if_pos rfl), ?_⟩
  rw [lookup_put, if_pos rfl]
  rfl

end Config

namespace Operator.Settings

open Config

/-- What the variable sets, if anything, is outside of the section. -/
def Spares (name : String) (variableName : String) : Prop :=
  ∀ place, variablePlace? variableName = some place →
    ∃ other rest, place = .name other :: rest ∧ name ≠ other

variable {config : Config} {environment before after : List (String × String)}
  {name variableName text : String} {settings : Settings}

theorem setVariables_append (config : Config) (before after : List (String × String)) :
    setVariables config (before ++ after) = setVariables (setVariables config before) after :=
  List.foldl_append

theorem setVariables_cons (config : Config) (variableName text : String)
    (environment : List (String × String)) :
    setVariables config ((variableName, text) :: environment) =
      setVariables
        (match variablePlace? variableName with
        | some place => config.set place (.text text)
        | none => config) environment := rfl

theorem lookup_setVariables (h : ∀ entry ∈ environment, Spares name entry.1) :
    (setVariables config environment).entries.lookup name = config.entries.lookup name := by
  induction environment generalizing config with
  | nil => rfl
  | cons entry environment ih =>
    obtain ⟨variableName, text⟩ := entry
    have hrest := fun entry hentry => h entry (List.mem_cons_of_mem _ hentry)
    rw [setVariables_cons, ih hrest]
    cases hplace : variablePlace? variableName with
    | none => rfl
    | some place =>
      obtain ⟨other, rest, rfl, hother⟩ := h (variableName, text) List.mem_cons_self _ hplace
      exact lookup_set_of_ne config rest (.text text) hother

theorem section?_setVariables {field : String} {fields : List String}
    (hplace : variablePlace? variableName = some [.name name, .name field])
    (hafter : ∀ entry ∈ after, Spares name entry.1) :
    let changed := setVariables config (before ++ (variableName, text) :: after)
    ∃ entries, section? changed name fields = some entries ∧
      entries.lookup field = some (.text text) := by
  intro changed
  have hset : changed =
      setVariables ((setVariables config before).set [.name name, .name field] (.text text))
        after := by
    simp only [changed, setVariables_append, setVariables_cons, hplace]
  obtain ⟨entries, htable, hfield⟩ := lookup_set_text (setVariables config before) name field text
  refine ⟨entries, ?_, hfield⟩
  rw [section?, hset, lookup_setVariables hafter, htable]

theorem logLevel_of_section? {entries : Entries} (h : ofConfig? config = some settings)
    (hsection : section? config "log" ["level"] = some entries)
    (hlevel : entries.lookup "level" = some (.text text)) : settings.logLevel = text := by
  obtain ⟨_, _, h⟩ := Option.bind_eq_some_iff.1 h
  obtain ⟨log, hlog, h⟩ := Option.bind_eq_some_iff.1 h
  cases hsection.symm.trans hlog
  obtain ⟨_, _, h⟩ := Option.bind_eq_some_iff.1 h
  rw [hlevel] at h
  cases h
  rfl

theorem storePath_of_section? {entries : Entries} (h : ofConfig? config = some settings)
    (hsection : section? config "database" ["path"] = some entries)
    (hpath : entries.lookup "path" = some (.text text)) : settings.storePath = some text := by
  obtain ⟨database, hdatabase, h⟩ := Option.bind_eq_some_iff.1 h
  cases hsection.symm.trans hdatabase
  obtain ⟨_, _, h⟩ := Option.bind_eq_some_iff.1 h
  obtain ⟨path, hread, h⟩ := Option.bind_eq_some_iff.1 h
  rw [text?, hpath] at hread
  cases hread
  dsimp only at h
  split at h
  · cases h
    rfl
  · cases h
    rfl
  · cases h

/-- Whatever is read from a file, and however, a variable wins. -/
theorem read?_of_variable (reader : Reader) (file : Option (Format × String))
    (h : read? reader file (before ++ (variableName, text) :: after) = some settings) :
    (variablePlace? variableName = some [.name "log", .name "level"] →
      (∀ entry ∈ after, Spares "log" entry.1) → settings.logLevel = text) ∧
    (variablePlace? variableName = some [.name "database", .name "path"] →
      (∀ entry ∈ after, Spares "database" entry.1) → settings.storePath = some text) := by
  obtain ⟨config, hconfig⟩ : ∃ config,
      ofConfig? (setVariables config (before ++ (variableName, text) :: after)) =
        some settings := by
    cases file with
    | none => exact ⟨_, h⟩
    | some found =>
      obtain ⟨entries, _, hentries⟩ := Option.bind_eq_some_iff.1 h
      exact ⟨_, hentries⟩
  constructor
  · intro hplace hafter
    obtain ⟨entries, hsection, hlevel⟩ := section?_setVariables hplace hafter
    exact logLevel_of_section? hconfig hsection hlevel
  · intro hplace hafter
    obtain ⟨entries, hsection, hpath⟩ := section?_setVariables hplace hafter
    exact storePath_of_section? hconfig hsection hpath

example : variablePlace? "LNKIT__LOG__LEVEL" = some [.name "log", .name "level"] := by
  decide +kernel

example : variablePlace? "LNKIT_LOG__LEVEL" = none := by decide +kernel

end Operator.Settings

end Lightpay
