import Lightpay.Toml.Moment
import Lightpay.Toml.Number
import Lightpay.Toml.Tables
import Lightpay.Toml.Text

/-!
Reading TOML documents (version 1.1). All scalars are read into text. Every reader returns what
follows the part it has read.
-/

namespace Lightpay.Toml

def skipBlanks (cs : List Char) : List Char :=
  cs.dropWhile isBlank

def skipLines (inComment : Bool) : List Char → List Char
  | [] => []
  | '\r' :: '\n' :: rest => skipLines false rest
  | c :: rest =>
    if c = '\n' then skipLines false rest
    else if inComment then (if isPrinted c then skipLines true rest else c :: rest)
    else if isBlank c then skipLines false rest
    else if c = '#' then skipLines true rest
    else c :: rest

def endLine? (cs : List Char) : Option (List Char) :=
  let rest :=
    match skipBlanks cs with
    | '#' :: rest => rest.dropWhile isPrinted
    | rest => rest
  if rest.isEmpty then some [] else lineEnd? rest

def isBareChar (c : Char) : Bool :=
  c.isAlphanum || c = '_' || c = '-'

def name? (cs : List Char) : Option (String × List Char) :=
  match Text.line? cs with
  | some (found, rest) => some (String.ofList found, rest)
  | none =>
    match cs.span isBareChar with
    | ([], _) => none
    | (found, rest) => some (String.ofList found, rest)

def names? : (count : Nat) → List Char → Option (List String × String × List Char)
  | 0, _ => none
  | count + 1, cs => do
    let (name, rest) ← name? (skipBlanks cs)
    match skipBlanks rest with
    | '.' :: rest =>
      let (path, last, rest) ← names? count rest
      return (name :: path, last, rest)
    | rest => return ([], name, rest)

def greatestDepth : Nat := 80

def dottedName? (cs : List Char) : Option (List String × String × List Char) :=
  names? greatestDepth cs

def scalar? (cs : List Char) : Option (List Char × List Char) :=
  match cs with
  | '"' :: _ => Text.read? cs
  | '\x27' :: _ => Text.read? cs
  | 't' :: 'r' :: 'u' :: 'e' :: rest => some ("true".toList, rest)
  | 'f' :: 'a' :: 'l' :: 's' :: 'e' :: rest => some ("false".toList, rest)
  | _ => Moment.read? cs <|> Number.read? cs

mutual

/-- Reads one value; each nested value and each further item takes one unit of `fuel`. At most
`depth` lists and inline tables may stand inside each other. -/
def value : (fuel depth : Nat) → List Char → Option (Config × List Char)
  | 0, _, _ => none
  | fuel + 1, depth, cs =>
    match cs, depth with
    | '[' :: _, 0 => none
    | '\x7b' :: _, 0 => none
    | '[' :: body, depth + 1 =>
      (items fuel depth [] (skipLines false body)).map fun (found, rest) => (.list found, rest)
    | '\x7b' :: body, depth + 1 =>
      (members fuel depth [] (skipLines false body)).map fun (found, rest) =>
        (.table (configEntries found), rest)
    | _, _ => (scalar? cs).map fun (found, rest) => (.text (String.ofList found), rest)

def items : (fuel depth : Nat) → (done : List Config) → List Char →
    Option (List Config × List Char)
  | 0, _, _, _ => none
  | fuel + 1, depth, done, cs =>
    match cs with
    | ']' :: rest => some (done.reverse, rest)
    | _ =>
      match value fuel depth cs with
      | none => none
      | some (item, rest) =>
        match skipLines false rest with
        | ',' :: rest => items fuel depth (item :: done) (skipLines false rest)
        | ']' :: rest => some ((item :: done).reverse, rest)
        | _ => none

def members : (fuel depth : Nat) → (done : Entries) → List Char → Option (Entries × List Char)
  | 0, _, _, _ => none
  | fuel + 1, depth, done, cs =>
    match cs with
    | '\x7d' :: rest => some (done, rest)
    | _ =>
      match dottedName? cs with
      | none => none
      | some (path, name, rest) =>
        match skipLines false rest with
        | '=' :: rest =>
          match value fuel depth (skipLines false rest) with
          | none => none
          | some (found, rest) =>
            match done.assign path name found, skipLines false rest with
            | some done, ',' :: rest => members fuel depth done (skipLines false rest)
            | some done, '\x7d' :: rest => some (done, rest)
            | _, _ => none
        | _ => none

end

structure Document where
  table : List String
  root : Entries

namespace Document

def header (document : Document) (cs : List Char) : Option (Document × List Char) :=
  match cs with
  | '[' :: cs =>
    match dottedName? cs with
    | some (path, name, ']' :: ']' :: rest) =>
      (document.root.appendTable path name).map fun root => (⟨path ++ [name], root⟩, rest)
    | _ => none
  | _ =>
    match dottedName? cs with
    | some (path, name, ']' :: rest) =>
      (document.root.openTable path name).map fun root => (⟨path ++ [name], root⟩, rest)
    | _ => none

def assignment (document : Document) (fuel : Nat) (cs : List Char) :
    Option (Document × List Char) :=
  match dottedName? cs with
  | some (path, name, '=' :: rest) => do
    let (found, rest) ← value fuel greatestDepth (skipBlanks rest)
    let root ← document.root.assignIn document.table path name found
    return ({ document with root }, rest)
  | _ => none

def lines : (fuel : Nat) → Document → List Char → Option Document
  | 0, _, _ => none
  | fuel + 1, document, cs =>
    match skipBlanks cs, endLine? cs with
    | [], _ => some document
    | _, some rest => lines fuel document rest
    | '[' :: rest, none => do
      let (document, rest) ← document.header rest
      (endLine? rest).bind (lines fuel document)
    | rest, none => do
      let (document, rest) ← document.assignment fuel rest
      (endLine? rest).bind (lines fuel document)

end Document

def parse? (text : String) : Option Config.Entries :=
  let cs :=
    match text.toList with
    | '\ufeff' :: rest => rest
    | cs => cs
  (Document.lines (cs.length + 1) ⟨[], []⟩ cs).map fun document => configEntries document.root

end Lightpay.Toml
