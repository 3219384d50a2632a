import Lightpay.Hex

/-!
Quoted text: what stands between the quotes of a JSON string, written with the fewest escapes
and read with all of them.
-/

namespace Lightpay.Json.Quoted

def escape (c : Char) : List Char :=
  if c = '"' then ['\\', '"']
  else if c = '\\' then ['\\', '\\']
  else if c = '\x08' then ['\\', 'b']
  else if c = '\x0c' then ['\\', 'f']
  else if c = '\n' then ['\\', 'n']
  else if c = '\r' then ['\\', 'r']
  else if c = '\t' then ['\\', 't']
  else if c.toNat < 0x20 then
    ['\\', 'u', '0', '0', Hex.digit (c.toNat / 16), Hex.digit (c.toNat % 16)]
  else [c]

def emit : List Char → List Char → List Char
  | [], rest => '"' :: rest
  | c :: cs, rest => escape c ++ emit cs rest

/-- One character of the text, or one 16-bit unit that an escape spells. -/
inductive Piece where
  | char (c : Char)
  | unit (n : Nat)
deriving DecidableEq

def simpleEscape? (c : Char) : Option Char :=
  if c = '"' ∨ c = '\\' ∨ c = '/' then some c
  else if c = 'b' then some '\x08'
  else if c = 'f' then some '\x0c'
  else if c = 'n' then some '\n'
  else if c = 'r' then some '\r'
  else if c = 't' then some '\t'
  else none

def unit? (a b c d : Char) : Option Nat := do
  let a ← Hex.value? a
  let b ← Hex.value? b
  let c ← Hex.value? c
  let d ← Hex.value? d
  return ((a * 16 + b) * 16 + c) * 16 + d

def pieces (done : List Piece) : List Char → Option (List Piece × List Char)
  | [] => none
  | c :: rest =>
    if c = '"' then some (done.reverse, rest)
    else if c = '\\' then
      match rest with
      | 'u' :: a :: b :: c :: d :: rest =>
        match unit? a b c d with
        | some n => pieces (.unit n :: done) rest
        | none => none
      | e :: rest =>
        match simpleEscape? e with
        | some c => pieces (.char c :: done) rest
        | none => none
      | [] => none
    else if c.toNat < 0x20 then none
    else pieces (.char c :: done) rest

def ofPair (high low : Nat) : Char :=
  Char.ofNat (0x10000 + (high - 0xd800) * 0x400 + (low - 0xdc00))

def join (done : List Char) : List Piece → Option (List Char)
  | [] => some done.reverse
  | .char c :: rest => join (c :: done) rest
  | .unit n :: rest =>
    if n < 0xd800 ∨ 0xdfff < n then join (Char.ofNat n :: done) rest
    else if 0xdc00 ≤ n then none
    else
      match rest with
      | .unit m :: rest =>
        if 0xdc00 ≤ m ∧ m ≤ 0xdfff then join (ofPair n m :: done) rest else none
      | _ => none

def read (cs : List Char) : Option (Option String × List Char) :=
  (pieces [] cs).map fun (found, rest) => ((join [] found).map String.ofList, rest)

end Lightpay.Json.Quoted
