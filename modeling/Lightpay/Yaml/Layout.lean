import Lightpay.Yaml.Property
import Lightpay.Yaml.Scalar

/-!
From a YAML text to its tokens. The columns of keys and dashes open and close block collections. A
key without a mark is known only by the colon behind it; until then it is pending, and the tokens
that it needs are put in front of it afterwards.
-/

namespace Lightpay.Yaml

/-- A collection that is open, or a column to which a value on further lines is indented. -/
structure Level where
  column : Nat
  block : Bool
deriving DecidableEq, Repr

structure PendingKey where
  line : Nat
  column : Nat
  index : Nat
  required : Bool
  position : Nat
deriving DecidableEq, Repr

structure Layout where
  place : Cursor
  tokens : Array Token
  tokenColumn : Nat
  levels : List Level
  pending : Option PendingKey
  outer : List (Option PendingKey)
  keyAllowed : Bool
  /-- The place at which a colon needs no white space behind it in a flow collection. -/
  adjacent : Nat
  marked : Bool
  entries : List Bool

namespace Layout

def start (text : List Char) : Layout where
  place := .start text
  tokens := #[]
  tokenColumn := 0
  levels := []
  pending := none
  outer := []
  keyAllowed := true
  adjacent := 0
  marked := false
  entries := []

def inFlow (layout : Layout) : Bool := !layout.outer.isEmpty

def indent (layout : Layout) : Int :=
  match layout.levels with
  | [] => -1
  | level :: _ => level.column

def push (token : Token) (column : Nat) (layout : Layout) : Layout :=
  { layout with tokens := layout.tokens.push token, tokenColumn := column }

def insert (position : Nat) (token : Token) (layout : Layout) : Layout :=
  { layout with tokens := layout.tokens.insertIdxIfInBounds position token }

def move (place : Cursor) (layout : Layout) : Layout := { layout with place }

def allowKey (allowed : Bool) (layout : Layout) : Layout := { layout with keyAllowed := allowed }

def unroll (layout : Layout) (column : Int) : Layout :=
  if layout.inFlow then layout
  else
    let close (layout : Layout) (level : Level) : Layout :=
      if level.block then layout.push .blockEnd layout.place.column else layout
    let (closed, levels) := layout.levels.span fun level => column < level.column
    { closed.foldl close layout with levels }

def leaveColumns (layout : Layout) : Layout :=
  { layout with levels := layout.levels.dropWhile (!·.block) }

/-- Opens a block collection at a column behind that of the inmost level. Its token stands at a
position, or else at the end. -/
def openBlock (token : Token) (column : Nat) (position : Option Nat) (layout : Layout) : Layout :=
  if layout.inFlow then layout
  else
    let levels :=
      match layout.levels with
      | level :: levels =>
        if level.column ≤ column ∧ ¬ level.block then levels else level :: levels
      | [] => []
    if levels.head?.all (·.column < column) then
      let opened := { layout with levels := ⟨column, true⟩ :: levels }
      match position with
      | some position => opened.insert position token
      | none => opened.push token layout.place.column
    else { layout with levels }

/-- Asks further lines of a value to start one column behind the block collection it is in. -/
def openColumn (layout : Layout) : Layout :=
  match layout.inFlow, layout.levels with
  | false, level :: levels =>
    if level.block then { layout with levels := ⟨level.column + 1, false⟩ :: level :: levels }
    else layout
  | _, _ => layout

def longestKey : Nat := 1024

def markKey (layout : Layout) : Layout :=
  if layout.keyAllowed then
    let place := layout.place
    let required :=
      !layout.inFlow && layout.levels.head?.any fun level =>
        level.block && level.column = place.column
    let key : PendingKey :=
      ⟨place.line, place.column, place.index, required, layout.tokens.size⟩
    { layout with pending := some key }
  else layout

def dropKey? (layout : Layout) : Option Layout :=
  if layout.pending.any (·.required) then none else some { layout with pending := none }

/-- Outside of flow collections a key ends on the line on which it starts. -/
def dropStale? (layout : Layout) : Option Layout :=
  let place := layout.place
  let stale (key : PendingKey) : Bool :=
    key.line < place.line || key.index + longestKey < place.index
  if ¬ layout.inFlow ∧ layout.pending.any stale then layout.dropKey? else some layout

/-- Skips white space and comments; each part takes one unit of `fuel`. In front of the column of a
level a tab stands on a line without other characters. -/
def skip (layout : Layout) : (fuel : Nat) → Option Layout
  | 0 => none
  | fuel + 1 =>
    let place := layout.place
    match place.rest with
    | [] => some layout
    | c :: _ =>
      if isBreak c then
        skip ((layout.move place.skipBreak).allowKey (layout.keyAllowed || !layout.inFlow)) fuel
      else if c = '#' then skip (layout.move place.skipLine) fuel
      else if ¬ isBlank c then some layout
      else if c = '\t' ∧ place.leading ∧ (place.column : Int) < layout.indent then do
        let (_, behind) ← place.skipToLineEnd? true
        if behind.atLineEnd then skip (layout.move behind) fuel else none
      else skip (layout.move (place.skipBlanks 1)) fuel

def skip? (layout : Layout) : Option Layout := layout.skip (layout.place.rest.length + 1)

def skipToLineEnd? (layout : Layout) : Option Layout :=
  (layout.place.skipToLineEnd? true).map fun (_, place) => layout.move place

def skipSpaces (layout : Layout) (skipped : Bool) : (fuel : Nat) → Option Layout
  | 0 => none
  | fuel + 1 =>
    let place := layout.place
    match place.rest with
    | ' ' :: _ => skipSpaces (layout.move (place.skipBlanks 1)) true fuel
    | '#' :: _ => skipSpaces (layout.move place.skipLine) skipped fuel
    | c :: _ =>
      if isBreak c then
        let allowed := layout.keyAllowed || !layout.inFlow
        skipSpaces ((layout.move place.skipBreak).allowKey allowed) true fuel
      else if skipped ∧ c ≠ '\t' then some layout
      else none
    | [] => if skipped then some layout else none

def property? (read : Cursor → Option (Token × Cursor)) (layout : Layout) : Option Layout := do
  let (token, behind) ← read layout.place
  return ((layout.markKey.allowKey false).push token layout.place.column).move behind

def anchor? (make : String → Token) (layout : Layout) : Option Layout :=
  layout.property? fun place =>
    (Property.name? (place.skip 1)).map fun (name, behind) => (make name, behind)

def documentMark? (token : Token) (layout : Layout) : Option Layout := do
  let layout ← (layout.unroll (-1)).dropKey?
  return ((layout.allowKey false).push token layout.place.column).move (layout.place.skip 3)

def documentEnd? (layout : Layout) : Option Layout := do
  let layout ← (← layout.documentMark? .documentEnd).skipToLineEnd?
  if layout.place.atLineEnd then return layout else none

def directive? (layout : Layout) : Option Layout := do
  let layout ← (layout.unroll (-1)).dropKey?
  let (token, behind) ← Property.directive? (layout.place.skip 1)
  return ((layout.allowKey false).push token layout.place.column).move behind

def greatestFlow : Nat := 255

def openFlow? (token : Token) (layout : Layout) : Option Layout := do
  if greatestFlow ≤ layout.outer.length then none
  let column := layout.place.column
  let layout := layout.markKey.openColumn
  let layout :=
    { layout with
      outer := layout.pending :: layout.outer
      pending := none
      keyAllowed := true
      place := layout.place.skip 1
      marked := layout.marked || token = Token.openBrace
      entries := if token = Token.openBrace then layout.entries else false :: layout.entries }
  return (← layout.skipToLineEnd?).push token column

def closeEntry (layout : Layout) : Layout :=
  match layout.entries with
  | true :: entries =>
    { layout with marked := false, entries := false :: entries }.push .closeBrace
      layout.place.column
  | _ => layout

def closeFlow? (token : Token) (layout : Layout) : Option Layout := do
  let column := layout.place.column
  let layout ← layout.dropKey?
  let layout :=
    match layout.outer with
    | pending :: outer => { layout with pending, outer }
    | [] => layout
  let layout := layout.allowKey false
  let layout :=
    if token = .closeBracket then
      let layout := layout.closeEntry
      { layout with entries := layout.entries.drop 1 }
    else layout
  let layout ← (layout.move (layout.place.skip 1)).skipToLineEnd?
  let layout := if layout.inFlow then { layout with adjacent := layout.place.index } else layout
  return layout.push token column

def comma? (layout : Layout) : Option Layout := do
  let column := layout.place.column
  let layout := ((← layout.dropKey?).allowKey true).closeEntry
  return (← (layout.move (layout.place.skip 1)).skipToLineEnd?).push .comma column

def misplacedProperty (layout : Layout) : Bool :=
  layout.tokens.back?.any (·.isProperty) && layout.tokenColumn = 0 && layout.place.column = 0 &&
    -1 < layout.indent

def dash? (layout : Layout) : Option Layout := do
  if layout.inFlow ∨ ¬ layout.keyAllowed ∨ layout.misplacedProperty then none
  let column := layout.place.column
  let layout :=
    (layout.move (layout.place.skip 1)).openBlock .blockSequence column none
  let (blanks, behind) ← layout.place.skipToLineEnd? true
  let layout := layout.move behind
  let atDash := behind.rest.head? = some '-' && startsSpace (behind.rest.drop 1)
  if blanks.contains '\t' ∧ atDash then none
  let layout :=
    if behind.rest.head?.any fun c => isBreak c || isFlowMark c then layout.openColumn else layout
  return ((← layout.dropKey?).allowKey true).push .dash layout.place.column

def keyMark? (layout : Layout) : Option Layout := do
  let column := layout.place.column
  if ¬ layout.inFlow ∧ ¬ layout.keyAllowed then none
  let layout :=
    if layout.inFlow then { layout with marked := true }
    else layout.openBlock .blockMapping column none
  let layout := (← layout.dropKey?).allowKey (!layout.inFlow)
  let layout := layout.move (layout.place.skip 1)
  return (← layout.skipSpaces false (layout.place.rest.length + 1)).push .key column

def tabbed (blanks : List Char) (behind : Cursor) : Bool :=
  !blanks.contains ' ' && behind.rest.head?.any Property.isWordChar

def colon? (layout : Layout) : Option Layout := do
  let place := layout.place
  let bare := !layout.entries.isEmpty && !layout.marked
  let layout := if bare then { layout with entries := true :: layout.entries.drop 1 } else layout
  let layout := layout.move (place.skip 1)
  let layout ←
    if layout.place.rest.head? = some '\t' then do
      let (blanks, behind) ← layout.place.skipToLineEnd? true
      if tabbed blanks behind then none else pure (layout.move behind)
    else pure layout
  let layout ←
    match layout.pending with
    | some key =>
      if bare ∧ key.line < place.line then none
      else
        let layout := layout.insert key.position .key
        let layout := if bare then layout.insert key.position .openBrace else layout
        let layout := (layout.openBlock .blockMapping key.column (some key.position)).openColumn
        pure { layout with pending := none, keyAllowed := false }
    | none =>
      if ¬ layout.inFlow ∧ ¬ layout.keyAllowed then none
      else
        let layout := if bare then layout.push .openBrace place.column else layout
        let layout := layout.openBlock .blockMapping place.column none
        pure (layout.openColumn.allowKey (!layout.inFlow))
  return layout.push .value place.column

def scalar? (plain : Bool) (read : Cursor → Option (List Char × Cursor)) (layout : Layout) :
    Option Layout :=
  layout.property? fun place => (read place).map fun (text, behind) => (.scalar plain text, behind)

def quoted? (layout : Layout) : Option Layout := do
  let layout ← layout.scalar? false (Scalar.quoted? layout.inFlow layout.indent)
  let layout ← layout.skip?
  return { layout with adjacent := layout.place.index }

def plain? (layout : Layout) : Option Layout := do
  let layout := layout.leaveColumns
  let layout ← layout.scalar? true (Scalar.plain? layout.inFlow layout.indent)
  return layout.allowKey layout.place.leading

def block? (folded : Bool) (layout : Layout) : Option Layout := do
  let marked := layout.markKey.leaveColumns
  let (text, behind) ← Scalar.block? folded marked.indent (marked.place.skip 1)
  return ((marked.allowKey true).push (.scalar false text) layout.place.column).move behind

def atColon (layout : Layout) (rest : List Char) : Bool :=
  startsSpace rest ||
    layout.inFlow && (rest.head?.any isFlowMark || layout.place.index = layout.adjacent)

def token? (layout : Layout) (c : Char) (rest : List Char) : Option Layout :=
  if c = '[' then layout.openFlow? .openBracket
  else if c = '\x7b' then layout.openFlow? .openBrace
  else if c = ']' then layout.closeFlow? .closeBracket
  else if c = '\x7d' then layout.closeFlow? .closeBrace
  else if c = ',' then layout.comma?
  else if c = '-' ∧ startsSpace rest then layout.dash?
  else if c = '?' ∧ startsSpace rest then layout.keyMark?
  else if c = ':' ∧ layout.atColon rest then layout.colon?
  else if c = '*' then layout.anchor? .alias
  else if c = '&' then layout.anchor? .anchor
  else if c = '!' then layout.property? (Property.tag? layout.inFlow)
  else if c = '|' ∧ ¬ layout.inFlow then layout.block? false
  else if c = '>' ∧ ¬ layout.inFlow then layout.block? true
  else if c = '\x27' ∨ c = '"' then layout.quoted?
  else if c = '%' ∨ c = '@' ∨ c = '\x60' then none
  else layout.plain?

def finish? (layout : Layout) : Option (List Token) := do
  if layout.outer.any (·.any (·.required)) then none
  return (← (layout.unroll (-1)).dropKey?).tokens.toList

def run (layout : Layout) : (fuel : Nat) → Option (List Token)
  | 0 => none
  | fuel + 1 => do
    let layout ← (← layout.skip?).dropStale?
    let layout := layout.unroll layout.place.column
    let place := layout.place
    match place.rest with
    | [] => layout.finish?
    | c :: rest =>
      let layout ←
        if place.column = 0 ∧ c = '%' then layout.directive?
        else if place.atMarks '-' then layout.documentMark? .documentStart
        else if place.atMarks '.' then layout.documentEnd?
        else if (place.column : Int) < layout.indent then none
        else layout.token? c rest
      layout.run fuel

end Layout

def Token.ofText? (text : String) : Option (List Token) :=
  let cs := text.toList.takeWhile (· ≠ '\x00')
  (Layout.start cs).run (cs.length + 2)

end Lightpay.Yaml
