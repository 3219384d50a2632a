import Lightpay.Numeral
import Lightpay.Yaml.Cursor

/-!
Scalars of a YAML text: in quotes, without quotes, and as blocks of lines. In the first two kinds a
single end of a line stands for a blank, and of several all but one are kept. Every reader returns
the place behind the scalar. Columns are compared with that of the collection a scalar belongs to,
which is `-1` outside of all.
-/

namespace Lightpay.Yaml.Scalar

/-- What is between two characters of a scalar. -/
structure Gap where
  blanks : List Char
  broken : Bool
  more : Nat
deriving DecidableEq, Repr

namespace Gap

def none : Gap := ⟨[], false, 0⟩

def lineEnd (leading : Bool) (gap : Gap) : Gap :=
  if leading then { gap with more := gap.more + 1 } else { gap with blanks := [], broken := true }

def fill (gap : Gap) (done : List Char) : List Char :=
  if gap.broken ∧ gap.more = 0 then ' ' :: done
  else List.replicate gap.more '\n' ++ (gap.blanks ++ done)

end Gap

def simpleEscape? (c : Char) : Option Char :=
  if c = '"' ∨ c = '\\' ∨ c = '/' ∨ c = ' ' ∨ c = '\t' then some c
  else if c = '0' then some '\x00'
  else if c = 'a' then some '\x07'
  else if c = 'b' then some '\x08'
  else if c = 't' then some '\t'
  else if c = 'n' then some '\n'
  else if c = 'v' then some '\x0b'
  else if c = 'f' then some '\x0c'
  else if c = 'r' then some '\r'
  else if c = 'e' then some '\x1b'
  else if c = 'N' then some '\u0085'
  else if c = '_' then some '\u00a0'
  else if c = 'L' then some '\u2028'
  else if c = 'P' then some '\u2029'
  else none

def escapeLength (c : Char) : Nat :=
  if c = 'x' then 2 else if c = 'u' then 4 else if c = 'U' then 8 else 0

def escape? : List Char → Option (Char × Nat)
  | [] => none
  | c :: rest =>
    match escapeLength c with
    | 0 => (simpleEscape? c).map fun found => (found, 1)
    | length =>
      let digits := rest.take length
      let n := Numeral.ofDigits 16 digits
      if digits.length = length ∧ digits.all (Numeral.isDigit 16) ∧ n.isValidChar then
        some (Char.ofNat n, length + 1)
      else none

def quotedWord (quote : Char) (done : List Char) : (fuel : Nat) → Cursor →
    Option (List Char × Bool × Cursor)
  | 0, _ => none
  | fuel + 1, place =>
    match place.rest with
    | [] => some (done, false, place)
    | c :: rest =>
      if isBlank c ∨ isBreak c then some (done, false, place)
      else if c = quote then
        if quote = '\x27' ∧ rest.head? = some quote then
          quotedWord quote (c :: done) fuel (place.skip 2)
        else some (done, false, place)
      else if c = '\\' ∧ quote = '"' then
        if rest.head?.any isBreak then some (done, true, (place.skip 1).skipBreak)
        else do
          let (found, length) ← escape? rest
          quotedWord quote (found :: done) fuel (place.skip (1 + length))
      else quotedWord quote (c :: done) fuel (place.skip 1)

/-- Reads blanks and ends of lines in a scalar in quotes; `leading` tells whether a line has ended.
No tab stands in front of the column of the collection. -/
def quotedGap (indent : Int) (leading : Bool) (gap : Gap) : (fuel : Nat) → Cursor →
    Option (Gap × Cursor)
  | 0, _ => none
  | fuel + 1, place =>
    match place.rest with
    | [] => some (gap, place)
    | c :: _ =>
      if isBreak c then quotedGap indent true (gap.lineEnd leading) fuel place.skipBreak
      else if ¬ isBlank c then some (gap, place)
      else if ¬ leading then
        quotedGap indent false { gap with blanks := c :: gap.blanks } fuel (place.skipBlanks 1)
      else if c = '\t' ∧ (place.column : Int) < indent then none
      else quotedGap indent true gap fuel (place.skipBlanks 1)

def quotedWords (quote : Char) (indent : Int) (done : List Char) : (fuel : Nat) → Cursor →
    Option (List Char × Cursor)
  | 0, _ => none
  | fuel + 1, place => do
    if place.atDocumentMark ∨ place.rest = [] ∨ (place.column : Int) < indent then none
    let length := place.rest.length + 1
    let (done, joined, place) ← quotedWord quote done length place
    if place.rest.head? = some quote then return (done.reverse, place.skip 1)
    else
      let (gap, place) ← quotedGap indent joined .none length place
      quotedWords quote indent (gap.fill done) fuel place

def mayEnd (inFlow : Bool) (line : Nat) (place : Cursor) : Bool :=
  match place.rest with
  | [] => true
  | c :: _ =>
    isBreak c || inFlow && (c = ',' || c = ']' || c = '\x7d' || c = ':') ||
      c = ':' && line = place.line

def quoted? (inFlow : Bool) (indent : Int) (place : Cursor) : Option (List Char × Cursor) := do
  let quote ← place.rest.head?
  let (text, behind) ← quotedWords quote indent [] (place.rest.length + 1) (place.skip 1)
  let (_, behind) ← behind.skipToLineEnd? true
  if mayEnd inFlow place.line behind then return (text, behind) else none

def goesOn (inFlow : Bool) : List Char → Bool
  | [] => false
  | c :: rest =>
    if isBlank c ∨ isBreak c then false
    else if c = ':' then !(startsSpace rest || inFlow && rest.head?.any isFlowMark)
    else !(inFlow && isFlowMark c)

def plainWord (inFlow : Bool) : List Char → List Char
  | [] => []
  | c :: rest => if goesOn inFlow (c :: rest) then c :: plainWord inFlow rest else []

def plainGap (indent : Int) (gap : Gap) : (fuel : Nat) → Cursor → Option (Gap × Cursor)
  | 0, _ => none
  | fuel + 1, place =>
    match place.rest with
    | [] => some (gap, place)
    | c :: _ =>
      if isBreak c then plainGap indent (gap.lineEnd place.leading) fuel place.skipBreak
      else if ¬ isBlank c then some (gap, place)
      else if ¬ place.leading then
        plainGap indent { gap with blanks := c :: gap.blanks } fuel (place.skipBlanks 1)
      else if c = '\t' ∧ (place.column : Int) < indent then do
        let (_, behind) ← place.skipToLineEnd? true
        if behind.atLineEnd then plainGap indent gap fuel behind else none
      else plainGap indent gap fuel (place.skipBlanks 1)

def atFlowDash : List Char → Bool
  | '-' :: rest => rest.head?.any isFlowMark
  | _ => false

/-- Reads a scalar without quotes, whose further lines start at the column `indent` or behind it;
each word takes one unit of `fuel`. -/
def plainWords (inFlow : Bool) (indent : Int) (done : List Char) (gap : Gap) : (fuel : Nat) →
    Cursor → Option (List Char × Cursor)
  | 0, _ => none
  | fuel + 1, place => do
    if place.atDocumentMark ∨ place.rest.head? = some '#' then return (done.reverse, place)
    else if inFlow ∧ atFlowDash place.rest then none
    else
      let word := plainWord inFlow place.rest
      let (done, gap, place) :=
        if word.isEmpty then (done, gap, place)
        else (word.reverse ++ gap.fill done, Gap.none, place.skip word.length)
      if place.rest.head?.any fun c => isBlank c || isBreak c then
        let (gap, place) ← plainGap indent gap (place.rest.length + 1) place
        if ¬ inFlow ∧ (place.column : Int) < indent then return (done.reverse, place)
        else plainWords inFlow indent done gap fuel place
      else return (done.reverse, place)

def plain? (inFlow : Bool) (indent : Int) (place : Cursor) : Option (List Char × Cursor) :=
  if inFlow ∧ (place.column : Int) ≤ indent then none
  else plainWords inFlow (indent + 1) [] .none (place.rest.length + 1) place

inductive Chomping where
  | strip
  | clip
  | keep
deriving DecidableEq, Repr

structure Marks where
  chomping : Chomping
  more : Option Nat
deriving DecidableEq, Repr

namespace Marks

def chomping? (place : Cursor) : Option (Chomping × Cursor) :=
  match place.rest with
  | '+' :: _ => some (.keep, place.skip 1)
  | '-' :: _ => some (.strip, place.skip 1)
  | _ => none

def more? (place : Cursor) : Option (Option Nat × Cursor) :=
  match place.rest with
  | c :: _ =>
    if c = '0' then none
    else if c.isDigit then some (some (c.toNat - 48), place.skip 1)
    else some (none, place)
  | [] => some (none, place)

def read? (place : Cursor) : Option (Marks × Cursor) := do
  match chomping? place with
  | some (chomping, place) =>
    let (more, place) ← more? place
    return (⟨chomping, more⟩, place)
  | none =>
    let (more, place) ← more? place
    if more.isNone then return (⟨.clip, none⟩, place)
    else
      let (chomping, place) := (chomping? place).getD (.clip, place)
      return (⟨chomping, more⟩, place)

end Marks

def skipIndent (indent : Nat) (count : Nat) : (fuel : Nat) → Cursor → Nat × Cursor
  | 0, place => (count, place)
  | fuel + 1, place =>
    let spaces := (place.rest.takeWhile (· = ' ')).length
    let behind := place.skipBlanks (min spaces (indent - place.column))
    if behind.atBreak then skipIndent indent (count + 1) fuel behind.skipBreak else (count, behind)

def findIndent (greatest count : Nat) : (fuel : Nat) → Cursor → Nat × Nat × Cursor
  | 0, place => (greatest, count, place)
  | fuel + 1, place =>
    let behind := place.skipBlanks (place.rest.takeWhile (· = ' ')).length
    let greatest := max greatest behind.column
    if behind.atBreak then findIndent greatest (count + 1) fuel behind.skipBreak
    else (greatest, count, behind)

structure Block where
  done : List Char
  broken : Bool
  empty : Nat
  indented : Bool

namespace Block

/-- Adds a line. In a folded block a line end between two lines that do not start with a blank
stands for a blank, or for the empty lines between them. -/
def add (folded : Bool) (block : Block) (line : List Char) : Block :=
  let indented := line.head?.any isBlank
  let breaks :=
    if folded ∧ block.broken ∧ ¬ block.indented ∧ ¬ indented then
      if block.empty = 0 then [' '] else List.replicate block.empty '\n'
    else List.replicate (block.empty + if block.broken then 1 else 0) '\n'
  ⟨line.reverse ++ (breaks ++ block.done), false, 0, indented⟩

def text (chomping : Chomping) (unended : Bool) (block : Block) : List Char :=
  let last := if block.broken then 1 else 0
  let last := last + if unended then 1 else 0
  let breaks :=
    match chomping with
    | .strip => 0
    | .clip => last
    | .keep => last + block.empty
  (List.replicate breaks '\n' ++ block.done).reverse

def lines (folded : Bool) (indent : Nat) : (fuel : Nat) → Block → Cursor → Block × Cursor
  | 0, block, place => (block, place)
  | fuel + 1, block, place =>
    if place.column ≠ indent ∨ place.rest = [] ∨ indent = 0 ∧ place.atMarks '.' then (block, place)
    else
      let line := place.rest.takeWhile (!isBreak ·)
      let block := block.add folded line
      let place := place.skipBlanks line.length
      if place.rest = [] then (block, place)
      else
        let place := place.skipBreak
        let (empty, place) := skipIndent indent 0 (place.rest.length + 1) place
        lines folded indent fuel { block with broken := true, empty } place

end Block

def emptyBlock (chomping : Chomping) (ended : Bool) (empty : Nat) : List Char :=
  match chomping with
  | .strip => []
  | .clip => if ended then ['\n'] else []
  | .keep => if ended then List.replicate (max empty 1) '\n' else []

def block? (folded : Bool) (indent : Int) (place : Cursor) : Option (List Char × Cursor) := do
  let (marks, place) ← Marks.read? place
  let (_, place) ← place.skipToLineEnd? true
  if ¬ place.atLineEnd then none
  let ended := place.atBreak
  let place := place.skipBreak
  if place.rest.head? = some '\t' then none
  let length := place.rest.length + 1
  let (column, empty, place) :=
    match marks.more with
    | some more =>
      let column := (max indent 0).toNat + more
      let (empty, place) := skipIndent column 0 length place
      (column, empty, place)
    | none =>
      let (greatest, empty, place) := findIndent 0 0 length place
      let least := if 0 < indent then 1 else 0
      (max (max greatest (indent + 1).toNat) least, empty, place)
  if place.rest = [] then return (emptyBlock marks.chomping ended empty, place)
  else if place.column < column ∧ indent < place.column then none
  else
    let (block, place) := Block.lines folded column length ⟨[], false, empty, false⟩ place
    let unended := place.rest = [] ∧ max column 1 ≤ place.column
    return (block.text marks.chomping unended, place)

end Lightpay.Yaml.Scalar
