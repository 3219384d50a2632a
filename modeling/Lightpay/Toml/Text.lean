import Lightpay.Hex

/-!
Strings of a TOML document, of one line or several, with escapes (in double quotes) or without
(in single ones). A line ends with a line feed or with a carriage return and a line feed; a string
keeps its line ends as they are written.
-/

namespace Lightpay.Toml

def isBlank (c : Char) : Bool :=
  c = ' ' || c = '\t'

def isPrinted (c : Char) : Bool :=
  c = '\t' || 0x20 ≤ c.toNat && c.toNat ≠ 0x7f

def lineEnd? : List Char → Option (List Char)
  | '\n' :: rest => some rest
  | '\r' :: '\n' :: rest => some rest
  | _ => none

namespace Text

inductive Position where
  | plain
  | escape
  | number (more value : Nat)
  | lineEnd
  | gap
  | carriage (skipped : Bool)
deriving DecidableEq, Repr

def escape? (c : Char) : Option Char :=
  if c = '"' ∨ c = '\\' then some c
  else if c = 'b' then some '\x08'
  else if c = 't' then some '\t'
  else if c = 'n' then some '\n'
  else if c = 'f' then some '\x0c'
  else if c = 'r' then some '\r'
  else if c = 'e' then some '\x1b'
  else none

/-- Reads up to the closing quotes of a string of one or several lines and returns what follows
them; `done` is read, newest first. Two more quotes may stand right before three closing ones. -/
def quoted (lines : Bool) (done : List Char) : Position → List Char → Option (List Char × List Char)
  | _, [] => none
  | .escape, c :: rest =>
    if c = 'x' then quoted lines done (.number 1 0) rest
    else if c = 'u' then quoted lines done (.number 3 0) rest
    else if c = 'U' then quoted lines done (.number 7 0) rest
    else
      match escape? c with
      | some found => quoted lines (found :: done) .plain rest
      | none =>
        if lines ∧ c = '\n' then quoted lines done .gap rest
        else if lines ∧ c = '\r' then quoted lines done (.carriage true) rest
        else if lines ∧ isBlank c then quoted lines done .lineEnd rest
        else none
  | .number more value, c :: rest =>
    match Hex.value? c, more with
    | none, _ => none
    | some digit, more + 1 => quoted lines done (.number more (16 * value + digit)) rest
    | some digit, 0 =>
      if (16 * value + digit).isValidChar then
        quoted lines (Char.ofNat (16 * value + digit) :: done) .plain rest
      else none
  | .lineEnd, c :: rest =>
    if c = '\n' then quoted lines done .gap rest
    else if c = '\r' then quoted lines done (.carriage true) rest
    else if isBlank c then quoted lines done .lineEnd rest
    else none
  | .carriage skipped, c :: rest =>
    if c ≠ '\n' then none
    else if skipped then quoted lines done .gap rest
    else quoted lines ('\n' :: '\r' :: done) .plain rest
  | position, c :: rest =>
    if position = .gap ∧ (c = '\n' ∨ isBlank c) then quoted lines done .gap rest
    else if c = '\\' then quoted lines done .escape rest
    else if c = '"' then
      if ¬ lines then some (done.reverse, rest)
      else
        match rest with
        | '"' :: '"' :: '"' :: '"' :: rest => some (('"' :: '"' :: done).reverse, rest)
        | '"' :: '"' :: '"' :: rest => some (('"' :: done).reverse, rest)
        | '"' :: '"' :: rest => some (done.reverse, rest)
        | _ => quoted lines (c :: done) .plain rest
    else if lines ∧ c = '\r' then quoted lines done (.carriage (position = .gap)) rest
    else if isPrinted c ∨ (lines ∧ c = '\n') then quoted lines (c :: done) .plain rest
    else none

def literal (lines : Bool) (done : List Char) : List Char → Option (List Char × List Char)
  | [] => none
  | '\r' :: '\n' :: rest => if lines then literal lines ('\n' :: '\r' :: done) rest else none
  | c :: rest =>
    if c = '\x27' then
      if ¬ lines then some (done.reverse, rest)
      else
        match rest with
        | '\x27' :: '\x27' :: '\x27' :: '\x27' :: rest => some ((c :: c :: done).reverse, rest)
        | '\x27' :: '\x27' :: '\x27' :: rest => some ((c :: done).reverse, rest)
        | '\x27' :: '\x27' :: rest => some (done.reverse, rest)
        | _ => literal lines (c :: done) rest
    else if isPrinted c ∨ (lines ∧ c = '\n') then literal lines (c :: done) rest
    else none

def firstLine (cs : List Char) : List Char :=
  (lineEnd? cs).getD cs

def line? : List Char → Option (List Char × List Char)
  | '"' :: rest => quoted false [] .plain rest
  | '\x27' :: rest => literal false [] rest
  | _ => none

def read? : List Char → Option (List Char × List Char)
  | '"' :: '"' :: '"' :: rest => quoted true [] .plain (firstLine rest)
  | '\x27' :: '\x27' :: '\x27' :: rest => literal true [] (firstLine rest)
  | cs => line? cs

end Text

end Lightpay.Toml
