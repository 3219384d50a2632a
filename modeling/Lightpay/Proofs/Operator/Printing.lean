import Lightpay.Operator.Tool
import Lightpay.Proofs.Store.Listing

/-! What the operator tool prints. A list has one line for each payment that it is a list of, and a
deletion prints the number of payments that it removes. -/

namespace Lightpay.Operator

open Lifecycle

namespace Report

variable {text : String} {texts : List String}

/-- The output is these lines, each of them ended by a line feed. -/
def IsLines (output : String) (texts : List String) : Prop :=
  output.toList.splitOn '\n' = texts.map String.toList ++ [[]]

/-- The text stays on one line. -/
def OneLine (text : String) : Prop := '\n' ∉ text.toList

instance (text : String) : Decidable (OneLine text) := inferInstanceAs (Decidable (_ ∉ _))

theorem oneLine_append_iff {left right : String} :
    OneLine (left ++ right) ↔ OneLine left ∧ OneLine right := by
  rw [OneLine, String.toList_append, List.mem_append, not_or]
  rfl

theorem oneLine_number (n : Nat) : OneLine (toString n) := by
  intro h
  have hmem : '\n' ∈ Nat.toDigits 10 n := by simpa using h
  exact absurd (Nat.isDigit_of_mem_toDigits (by decide) (by decide) hmem) (by decide)

theorem digit_ne_newline : ∀ n < 16, '\n' ≠ Hex.digit n := by decide

theorem newline_notMem_digits (bytes : Bytes) : '\n' ∉ Hex.digits bytes := by
  induction bytes with
  | nil => exact List.not_mem_nil
  | cons byte rest ih =>
    have hbyte : byte.toNat < 256 := byte.toNat_lt
    simp only [Hex.digits, List.mem_cons, not_or]
    exact ⟨digit_ne_newline _ (by omega), digit_ne_newline _ (by omega), ih⟩

theorem oneLine_hash (hash : PaymentHash) : OneLine hash.text := by
  rw [OneLine, PaymentHash.text, Bytes32.text, Hex.encode, String.toList_ofList]
  exact newline_notMem_digits hash.value.bytes

theorem oneLine_summary (payment : Payment) : OneLine (summary payment) := by
  have hstatus : OneLine payment.status.text := by
    cases payment.status <;> decide
  simp only [summary, Amount.text, oneLine_append_iff, oneLine_hash, oneLine_number, hstatus,
    true_and, and_true]
  decide

theorem toList_lines (texts : List String) :
    (lines texts).toList = ['\n'].intercalate (texts.map String.toList ++ [[]]) := by
  rw [lines, String.toList_join]
  induction texts with
  | nil => rfl
  | cons text texts ih =>
    rw [List.map_cons, List.flatMap_cons, ih, List.map_cons, List.cons_append,
      List.intercalate_cons_of_ne_nil (by simp)]
    simp

theorem isLines_lines (h : ∀ text ∈ texts, OneLine text) : IsLines (lines texts) texts := by
  rw [IsLines, toList_lines]
  refine List.splitOn_intercalate '\n' (fun line hline => ?_) (by simp)
  rcases List.mem_append.1 hline with hline | hline
  · obtain ⟨text, hmem, rfl⟩ := List.mem_map.1 hline
    exact h text hmem
  · rw [List.mem_singleton.1 hline]
    exact List.not_mem_nil

end Report

namespace Tool

/-- The part before the command: the settings are read, and the store that they name is opened. -/
def opening [Monad m] (host : Host m) (reader : Config.Reader)
    (environment : List (String × String)) (invocation : Invocation) :
    ExceptT String m (String × Store) := do
  let workDir ← ExceptT.mk (pure (workDir invocation environment))
  ExceptT.mk (host.makeDirectories workDir)
  let configFile := invocation.configFile.getD (Settings.join workDir configName)
  let settings ← settings host reader environment configFile
  let path := settings.store workDir
  let store ← openStore host path
  return (path, store)

/-- The command on the opened store, which is written back if it has changed. -/
def closing [Monad m] (host : Host m) (path : String) (store : Store) (command : Command) :
    ExceptT String m (List String) := do
  let (lines, changed) ←
    ExceptT.mk (pure ((command.execute store).mapError Command.Fault.message))
  if changed = store then return lines
  else if ← host.write path changed then return lines
  else throw ("Cannot write " ++ path)

theorem perform_eq [Monad m] [LawfulMonad m] (host : Host m) (reader : Config.Reader)
    (environment : List (String × String)) (invocation : Invocation) :
    perform host reader environment invocation =
      opening host reader environment invocation >>= fun (path, store) =>
        closing host path store invocation.command := by
  simp [perform, opening, closing]

variable {σ : Type} {host : Host (StateM σ)} {reader : Config.Reader}
  {environment : List (String × String)} {arguments : List String} {command : Command}
  {path : String} {store changed : Store} {before after later : σ} {lines : List String}

/-- Run with the arguments, the tool is to carry out the command, and opens the store. -/
def Opens (host : Host (StateM σ)) (reader : Config.Reader)
    (environment : List (String × String)) (arguments : List String) (command : Command)
    (path : String) (store : Store) (before after : σ) : Prop :=
  ∃ invocation, CommandLine.read arguments = .run invocation ∧ invocation.command = command ∧
    (opening host reader environment invocation).run.run before = (.ok (path, store), after)

/-- A store that has changed is written back. -/
def Saves (host : Host (StateM σ)) (path : String) (store changed : Store) (after later : σ) :
    Prop :=
  if changed = store then later = after
  else (host.write path changed).run after = (true, later)

/-- The run is a success, and prints the lines. -/
def Prints (host : Host (StateM σ)) (reader : Config.Reader)
    (environment : List (String × String)) (arguments : List String) (lines : List String)
    (before later : σ) : Prop :=
  ∃ output, (run host reader environment arguments).run before = (.success output, later) ∧
    Report.IsLines output lines

theorem closing_of_saves (h : command.execute store = .ok (lines, changed))
    (hsaves : Saves host path store changed after later) :
    (closing host path store command).run.run after = (.ok lines, later) := by
  rw [closing, h]
  change StateT.run (ExceptT.run (if changed = store then _ else _)) after = _
  by_cases hchanged : changed = store
  · rw [Saves, if_pos hchanged] at hsaves
    rw [if_pos hchanged, hsaves]
    rfl
  · rw [Saves, if_neg hchanged] at hsaves
    have hlift :
        (liftM (host.write path changed) : ExceptT String (StateM σ) Bool).run.run after =
          (.ok true, later) := by
      rw [ExceptT.run_liftM, StateT.run_map, hsaves]
      rfl
    rw [if_neg hchanged, ExceptT.run_bind, StateT.run_bind, hlift]
    rfl

theorem prints_of_execute
    (h : Opens host reader environment arguments command path store before after)
    (hexecute : command.execute store = .ok (lines, changed))
    (hsaves : Saves host path store changed after later)
    (hlines : ∀ line ∈ lines, Report.OneLine line) :
    Prints host reader environment arguments lines before later := by
  obtain ⟨invocation, hread, rfl, hopening⟩ := h
  have hperform :
      (perform host reader environment invocation).run.run before = (.ok lines, later) := by
    rw [perform_eq, ExceptT.run_bind, StateT.run_bind, hopening]
    exact closing_of_saves hexecute hsaves
  refine ⟨Report.lines lines, ?_, Report.isLines_lines hlines⟩
  rw [run, hread]
  dsimp only
  rw [StateT.run_bind, hperform]
  rfl

theorem prints_summaries {payments : List Payment}
    (h : Opens host reader environment arguments command path store before after)
    (hexecute : command.execute store = .ok (payments.map Report.summary, store)) :
    Prints host reader environment arguments (payments.map Report.summary) before after := by
  have hsaves : Saves host path store store after after := by simp [Saves]
  refine prints_of_execute h hexecute hsaves fun line hline => ?_
  obtain ⟨payment, _, rfl⟩ := List.mem_map.1 hline
  exact Report.oneLine_summary payment

/-- What the commands print of a store of which these are the payments and those in flight, and what
is saved after a deletion. -/
structure Shows (store : Store) (payments inFlight : List Payment) (remaining : Store) : Prop where
  list : ∀ {σ : Type} (host : Host (StateM σ)) reader environment arguments path before after,
    Opens host reader environment arguments .list path store before after →
      Prints host reader environment arguments (payments.map Report.summary) before after
  listInFlight : ∀ {σ : Type} (host : Host (StateM σ)) reader environment arguments path before
    after, Opens host reader environment arguments .listInFlight path store before after →
      Prints host reader environment arguments (inFlight.map Report.summary) before after
  deleteResolved : ∀ {σ : Type} (host : Host (StateM σ)) reader environment arguments path before
    after later, Opens host reader environment arguments .deleteResolved path store before after →
      Saves host path store remaining after later →
        Prints host reader environment arguments [Report.count (payments.length - inFlight.length)]
          before later

end Tool

end Lightpay.Operator
