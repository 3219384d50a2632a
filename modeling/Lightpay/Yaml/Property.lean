import Lightpay.Numeral
import Lightpay.Yaml.Cursor
import Lightpay.Yaml.Token

/-!
What stands in front of nodes and documents of a YAML text: anchors, tags and directives. Every
reader returns the place behind the part it has read.
-/

namespace Lightpay.Yaml.Property

def isWordChar (c : Char) : Bool :=
  c.isAlphanum || c = '_' || c = '-'

def isUriChar (c : Char) : Bool :=
  isWordChar c || "#;/?:@&=+$,.!~*'()[]%".toList.contains c

def isTagChar (c : Char) : Bool :=
  isUriChar c && !isFlowMark c && c != '!'

def isAnchorChar (c : Char) : Bool :=
  !isBlank c && !isBreak c && !isFlowMark c && c != '\ufeff'

def name? (place : Cursor) : Option (String × Cursor) :=
  match place.rest.takeWhile isAnchorChar with
  | [] => none
  | found => some (String.ofList found, place.skip found.length)

def width? (byte : Nat) : Option Nat :=
  if byte < 0x80 then some 1
  else if byte < 0xc0 then none
  else if byte < 0xe0 then some 2
  else if byte < 0xf0 then some 3
  else if byte < 0xf8 then some 4
  else none

def byte? (place : Cursor) : Option (Nat × Cursor) :=
  match place.rest with
  | '%' :: a :: b :: _ =>
    if Numeral.isDigit 16 a ∧ Numeral.isDigit 16 b then
      some (Numeral.ofDigits 16 [a, b], place.skip 3)
    else none
  | _ => none

def furtherBytes (code : Nat) : (count : Nat) → Cursor → Option (Nat × Cursor)
  | 0, place => some (code, place)
  | count + 1, place => do
    let (byte, place) ← byte? place
    if 0x80 ≤ byte ∧ byte < 0xc0 then furtherBytes (256 * code + byte) count place else none

def escape? (place : Cursor) : Option (Char × Cursor) := do
  let (byte, place) ← byte? place
  let width ← width? byte
  let (code, place) ← furtherBytes byte (width - 1) place
  if code.isValidChar then return (Char.ofNat code, place) else none

def uri (kind : Char → Bool) (done : List Char) : (fuel : Nat) → Cursor →
    Option (List Char × Cursor)
  | 0, _ => none
  | fuel + 1, place =>
    match place.rest with
    | [] => some (done.reverse, place)
    | c :: _ =>
      if ¬ kind c then some (done.reverse, place)
      else if c = '%' then do
        let (found, place) ← escape? place
        uri kind (found :: done) fuel place
      else uri kind (c :: done) fuel (place.skip 1)

def uri? (kind : Char → Bool) (place : Cursor) : Option (String × Cursor) :=
  (uri kind [] (place.rest.length + 1) place).map fun (found, place) => (String.ofList found, place)

def handle? (place : Cursor) : Option (String × Cursor) :=
  match place.rest with
  | '!' :: rest =>
    let name := rest.takeWhile isWordChar
    let close := if (rest.drop name.length).head? = some '!' then ['!'] else []
    let found := '!' :: name ++ close
    some (String.ofList found, place.skip found.length)
  | _ => none

def isClosed (handle : String) : Bool :=
  2 ≤ handle.length && handle.toList.getLast? = some '!'

/-- A tag: all of it in angles, or a handle with what follows it. The mark alone is a tag too. -/
def tag? (inFlow : Bool) (place : Cursor) : Option (Token × Cursor) := do
  let (found, place) ←
    match place.rest with
    | '!' :: '<' :: _ => do
      let (suffix, place) ← uri? isUriChar (place.skip 2)
      if place.rest.head? = some '>' then pure (Token.tag "" suffix, place.skip 1) else none
    | _ => do
      let (handle, place) ← handle? place
      let (suffix, place) ← uri? isTagChar place
      if isClosed handle then
        if suffix = "" then none else pure (Token.tag handle suffix, place)
      else
        let suffix := String.ofList (handle.toList.drop 1) ++ suffix
        pure (if suffix = "" then Token.tag "" "!" else Token.tag "!" suffix, place)
  if startsSpace place.rest ∨ inFlow ∧ place.rest.head?.any isFlowMark then return (found, place)
  else none

def versionNumber? (place : Cursor) : Option Cursor :=
  let digits := place.rest.takeWhile Char.isDigit
  if digits.isEmpty ∨ 9 < digits.length then none else some (place.skip digits.length)

def skipBlanks (place : Cursor) : Cursor :=
  place.skipBlanks (place.rest.takeWhile isBlank).length

def version? (place : Cursor) : Option (Token × Cursor) := do
  let place ← versionNumber? (skipBlanks place)
  if place.rest.head? = some '.' then return (.version, ← versionNumber? (place.skip 1)) else none

def meaning? (place : Cursor) : Option (Token × Cursor) := do
  let (handle, place) ← handle? (skipBlanks place)
  let place := skipBlanks place
  let (meaning, behind) ← uri? isUriChar place
  if ¬ (isClosed handle ∨ handle = "!") then none
  else if ¬ place.rest.head?.any (fun c => c = '!' || isTagChar c) then none
  else if startsSpace behind.rest then return (.handle handle meaning, behind)
  else none

/-- A directive after its mark, and the end of its line. One of an unknown name has no meaning. -/
def directive? (place : Cursor) : Option (Token × Cursor) := do
  let name := place.rest.takeWhile isWordChar
  let place := place.skip name.length
  if name.isEmpty ∨ ¬ startsSpace place.rest then none
  let (found, place) ←
    if name = "YAML".toList then version? place
    else if name = "TAG".toList then meaning? place
    else pure (.handle "" "", place.skipLine)
  let (_, place) ← place.skipToLineEnd? true
  if place.atLineEnd then return (found, place.skipBreak) else none

end Lightpay.Yaml.Property
