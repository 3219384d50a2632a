import Lightpay.Json.Quoted
import Lightpay.Numeral
import Lightpay.Unicode.Identifier
import Lightpay.Whitespace

/-!
The scalars of a JSON5 text: strings in quotes of either kind, names without quotes, and numbers,
each of which is read into its plain decimal text.
-/

namespace Lightpay.Json5

open Whitespace

def isBlank (c : Char) : Bool :=
  isSeparator c || isLineEnd c || c = '\t' || c = '\x0b' || c = '\x0c' || c = '\ufeff'

namespace Text

open Json.Quoted

def escape? (c : Char) : Option Char :=
  if c = 'b' then some '\x08'
  else if c = 'f' then some '\x0c'
  else if c = 'n' then some '\n'
  else if c = 'r' then some '\r'
  else if c = 't' then some '\t'
  else if c = 'v' then some '\x0b'
  else if c = '0' then some '\x00'
  else if c.isDigit ∨ c = 'x' ∨ c = 'u' then none
  else some c

def pieces (quote : Char) (done : List Piece) : List Char → Option (List Piece × List Char)
  | [] => none
  | '\\' :: 'u' :: a :: b :: c :: d :: rest =>
    (unit? a b c d).bind fun n => pieces quote (.unit n :: done) rest
  | '\\' :: 'x' :: a :: b :: rest =>
    (unit? '0' '0' a b).bind fun n => pieces quote (.char (Char.ofNat n) :: done) rest
  | '\\' :: '\r' :: '\n' :: rest => pieces quote done rest
  | '\\' :: c :: rest =>
    if isLineEnd c then pieces quote done rest
    else if c = '0' ∧ rest.head?.any Char.isDigit then none
    else (escape? c).bind fun found => pieces quote (.char found :: done) rest
  | c :: rest =>
    if c = quote then some (done.reverse, rest)
    else if c = '\n' ∨ c = '\r' ∨ c = '\\' then none
    else pieces quote (.char c :: done) rest

def quoted? (quote : Char) (cs : List Char) : Option (String × List Char) := do
  let (found, rest) ← pieces quote [] cs
  return (String.ofList (← join [] found), rest)

def startsName (c : Char) : Bool :=
  Unicode.isLetter c || c = '$' || c = '_'

/-- A character of a name; of those that join others invisibly, two. -/
def isNameChar (c : Char) : Bool :=
  startsName c || Unicode.isFollower c || c = '\u200c' || c = '\u200d'

def nameChars (done : List Char) : List Char → Option (List Char × List Char)
  | '\\' :: 'u' :: a :: b :: c :: d :: rest => do
    let n ← unit? a b c d
    if n.isValidChar ∧ isNameChar (Char.ofNat n) then nameChars (Char.ofNat n :: done) rest
    else none
  | '\\' :: _ => none
  | c :: rest =>
    if isNameChar c then nameChars (c :: done) rest else some (done.reverse, c :: rest)
  | [] => some (done.reverse, [])

def name? (cs : List Char) : Option (String × List Char) := do
  let (name, rest) ← nameChars [] cs
  if name.head?.any startsName then return (String.ofList name, rest) else none

end Text

namespace Number

open Numeral

/-- The text of an integer, which is a fraction if 64 bits do not hold it. -/
def wholeText (negative : Bool) (n : Nat) : List Char :=
  let value : Int := if negative then -n else n
  if Fits64 value then integerText value else Decimal.text ⟨negative, n, 0⟩

def hex? (negative : Bool) (cs : List Char) : Option (List Char × List Char) :=
  match cs.span (isDigit 16) with
  | ([], _) => none
  | (digits, rest) => some (wholeText negative (ofDigits 16 digits), rest)

def decimal? (negative : Bool) (cs : List Char) : Option (List Char × List Char) := do
  let (found, rest) ← Decimal.unsigned? negative cs
  let whole := cs.takeWhile Char.isDigit
  if whole.head? = some '0' ∧ whole.length ≠ 1 then none
  else if whole.length + rest.length = cs.length then
    return (wholeText negative (ofDigits 10 whole), rest)
  else return (found.text, rest)

def read? (cs : List Char) : Option (List Char × List Char) :=
  match sign cs with
  | (negative, '0' :: 'x' :: rest) => hex? negative rest
  | (negative, '0' :: 'X' :: rest) => hex? negative rest
  | (negative, 'I' :: 'n' :: 'f' :: 'i' :: 'n' :: 'i' :: 't' :: 'y' :: rest) =>
    some (signed negative "inf".toList, rest)
  | (_, 'N' :: 'a' :: 'N' :: rest) => some ("NaN".toList, rest)
  | (negative, rest) => decimal? negative rest

end Number

end Lightpay.Json5
