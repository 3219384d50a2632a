import Lightpay.Config.Basic
import Lightpay.Hex
import Lightpay.Whitespace

/-!
Reading configurations from INI texts: lines `key = value` or `key: value`, first those of the root,
then those of the sections, each below its name in brackets. A section that stands there twice
counts as it stands last. Comments have lines of their own, which start with their mark: what is
behind a blank at the start of a line is a key, even if it goes on over further lines.
-/

namespace Lightpay.Ini

open Whitespace

abbrev Found := Except (List Char)

def codePoint? (a b c d : Char) : Option Nat := do
  let digits ← (if a = '+' then [b, c, d] else [a, b, c, d]).mapM Hex.value?
  return digits.foldl (fun n digit => 16 * n + digit) 0

def escape? : List Char → Found (List Char × List Char)
  | 'x' :: a :: b :: c :: d :: rest =>
    match codePoint? a b c d with
    | some n => if n.isValidChar then .ok ([Char.ofNat n], rest) else .error (d :: rest)
    | none => .error (d :: rest)
  | c :: rest =>
    if c = '\n' then .ok ([], rest)
    else if c = '0' then .ok (['\x00'], rest)
    else if c = 'a' then .ok (['\x07'], rest)
    else if c = 'b' then .ok (['\x08'], rest)
    else if c = 't' then .ok (['\t'], rest)
    else if c = 'r' then .ok (['\r'], rest)
    else if c = 'n' then .ok (['\n'], rest)
    else if c = 'x' then .error []
    else .ok ([c], rest)
  | [] => .ok (['\\'], [])

def textUntil (ends : Char → Bool) (run : Bool) (done : List Char) :
    (fuel : Nat) → List Char → Found (List Char × List Char)
  | 0, cs => .error cs
  | _, [] => if run then .ok (done.reverse, []) else .error []
  | fuel + 1, c :: rest =>
    if ends c then .ok (done.reverse, c :: rest)
    else if c = '\\' then do
      let (found, rest) ← escape? rest
      textUntil ends run (found.reverse ++ done) fuel rest
    else textUntil ends run (c :: done) fuel rest

def text? (ends : Char → Bool) (run : Bool) (cs : List Char) : Found (List Char × List Char) :=
  textUntil ends run [] (cs.length + 1) cs

def value? (inQuotes : List (List Char)) : (fuel : Nat) → List Char → Found (List Char × List Char)
  | 0, cs => .error cs
  | _, [] => .ok (inQuotes.reverse.flatten, [])
  | fuel + 1, c :: rest => do
    if c = '"' ∨ c = '\x27' then
      let (part, rest) ← text? (· = c) false rest
      value? (part :: inQuotes) fuel (rest.drop 1)
    else
      let (part, rest) ← text? (fun c => c = '\n' || c = '\r') true (c :: rest)
      let found := if inQuotes.isEmpty then trim part else inQuotes.reverse.flatten ++ trimEnd part
      return (found, rest)

def isBlank (c : Char) : Bool := c = ' ' || c = '\t'

def skip (start : Bool) : List Char → Bool × List Char
  | [] => (start, [])
  | c :: rest =>
    if c = '\n' ∨ c = '\r' then
      if rest.head?.any isBlank then (c = '\n', rest) else skip (c = '\n') rest
    else if isSpace c then skip false rest
    else (start, c :: rest)

structure Document where
  root : Config.Entries
  opened : Option String

namespace Document

def openSection (document : Document) (name : String) : Document :=
  ⟨Config.put name (.table []) document.root, some name⟩

def assign (document : Document) (name value : String) : Document :=
  match document.opened with
  | none => { document with root := Config.put name (.text value) document.root }
  | some opened =>
    let entries := ((document.root.lookup opened).getD .absent).entries
    { document with
      root := Config.put opened (.table (Config.put name (.text value) entries)) document.root }

def entry? (cs : List Char) : Found (Option (String × String) × List Char) := do
  let (name, rest) ← text? (fun c => c = '=' || c = ':') false cs
  let rest := (rest.drop 1).dropWhile fun c => isSpace c && c ≠ '\n' && c ≠ '\r'
  match value? [] (rest.length + 1) rest with
  | .ok (value, rest) =>
    if (trim name).isEmpty then return (none, rest)
    else return (some (String.ofList (trim name), String.ofList value), rest)
  | .error rest => return (none, rest)

/-- Reads the parts of a document; each takes one unit of `fuel`. A comment has to stand at the
start of a line, which `start` tells of the first character. -/
def read : (fuel : Nat) → (start : Bool) → Document → List Char → Option Document
  | 0, _, _, _ => none
  | _, _, document, [] => some document
  | fuel + 1, start, document, c :: rest =>
    if c = ';' ∨ c = '#' then
      if start then
        let (start, rest) := skip true ((rest.dropWhile (· ≠ '\n')).drop 1)
        read fuel start document rest
      else none
    else if c = '[' then
      match text? (· = ']') false rest with
      | .ok (name, rest) =>
        let (start, rest) := skip false (rest.drop 1)
        read fuel start (document.openSection (String.ofList (trim name))) rest
      | .error _ => none
    else
      match entry? (c :: rest) with
      | .ok (some (name, value), rest) =>
        let (start, rest) := skip false rest
        read fuel start (document.assign name value) rest
      | .ok (none, _) => none
      | .error rest =>
        if isBlank c then
          let (start, rest) := skip (rest.head? = some '\n') (rest.drop 1)
          read fuel start document rest
        else none

end Document

def parse? (text : String) : Option Config.Entries :=
  let cs := text.toList.dropWhile fun c => c = '\n' || c = '\r'
  (Document.read (cs.length + 1) true ⟨[], none⟩ cs).map (·.root)

end Lightpay.Ini
