/-!
Places in a YAML text: what is left of the text, with the line and the column where that starts. A
line ends with a line feed, a carriage return, or both.
-/

namespace Lightpay.Yaml

def isBlank (c : Char) : Bool := c = ' ' || c = '\t'

def isBreak (c : Char) : Bool := c = '\n' || c = '\r'

def isFlowMark (c : Char) : Bool :=
  c = ',' || c = '[' || c = ']' || c = '\x7b' || c = '\x7d'

def startsSpace (cs : List Char) : Bool :=
  cs.head?.all fun c => isBlank c || isBreak c

structure Cursor where
  rest : List Char
  line : Nat
  column : Nat
  index : Nat
  leading : Bool
deriving DecidableEq, Repr

namespace Cursor

def start (text : List Char) : Cursor := ⟨text, 0, 0, 0, true⟩

def skipBlanks (n : Nat) (place : Cursor) : Cursor :=
  { place with rest := place.rest.drop n, column := place.column + n, index := place.index + n }

def skip (n : Nat) (place : Cursor) : Cursor :=
  { place.skipBlanks n with leading := false }

def skipBreak (place : Cursor) : Cursor :=
  match place.rest with
  | '\r' :: '\n' :: rest => ⟨rest, place.line + 1, 0, place.index + 2, true⟩
  | c :: rest => if isBreak c then ⟨rest, place.line + 1, 0, place.index + 1, true⟩ else place
  | [] => place

def skipLine (place : Cursor) : Cursor :=
  place.skip (place.rest.takeWhile (!isBreak ·)).length

def atLineEnd (place : Cursor) : Bool :=
  place.rest.head?.all isBreak

def atBreak (place : Cursor) : Bool :=
  place.rest.head?.any isBreak

def atMarks (mark : Char) (place : Cursor) : Bool :=
  match place.rest with
  | a :: b :: c :: rest =>
    place.column = 0 && a = mark && b = mark && c = mark && startsSpace rest
  | _ => false

def atDocumentMark (place : Cursor) : Bool :=
  place.atMarks '-' || place.atMarks '.'

/-- Skips spaces, and `tabs` if they are allowed, then a comment, which does not follow any other
character directly. The blanks are returned too. -/
def skipToLineEnd? (tabs : Bool) (place : Cursor) : Option (List Char × Cursor) :=
  let blanks := place.rest.takeWhile fun c => c = ' ' || tabs && c = '\t'
  let behind := place.skipBlanks blanks.length
  if behind.rest.head? = some '#' then
    if blanks.isEmpty then none else some (blanks, behind.skipLine)
  else some (blanks, behind)

end Cursor

end Lightpay.Yaml
