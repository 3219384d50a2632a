import Lightpay.Bytes

/-!
Hexadecimal text. Writing gives two lower case digits for each byte; reading takes digits of
either case and reports the first fault: an odd length, a wrong length, then the first
character that is no digit.
-/

namespace Lightpay.Hex

inductive Error where
  | oddLength
  | wrongLength
  | badCharacter (byte : UInt8) (position : Nat)
deriving DecidableEq, Repr

def digit (n : Nat) : Char :=
  if n < 10 then Char.ofNat (48 + n) else Char.ofNat (87 + n)

def digits : Bytes → List Char
  | [] => []
  | byte :: rest => digit (byte.toNat / 16) :: digit (byte.toNat % 16) :: digits rest

def encode (bytes : Bytes) : String :=
  String.ofList (digits bytes)

def value? (c : Char) : Option Nat :=
  if '0' ≤ c ∧ c ≤ '9' then some (c.toNat - 48)
  else if 'a' ≤ c ∧ c ≤ 'f' then some (c.toNat - 87)
  else if 'A' ≤ c ∧ c ≤ 'F' then some (c.toNat - 55)
  else none

/-- The value of the digit at a position; a fault names the first byte of the character. -/
def value (position : Nat) (c : Char) : Except Error Nat :=
  match value? c with
  | some n => .ok n
  | none => .error (.badCharacter ((String.utf8EncodeChar c).headD 0) position)

def pairs (position : Nat) : List Char → Except Error Bytes
  | [] => .ok []
  | [c] => do
    let _ ← value position c
    .error .oddLength
  | high :: low :: rest => do
    let h ← value position high
    let l ← value (position + 1) low
    let bytes ← pairs (position + 2) rest
    .ok (UInt8.ofNat (16 * h + l) :: bytes)

def decode (text : String) : Except Error Bytes :=
  if text.utf8ByteSize % 2 = 1 then .error .oddLength
  else pairs 0 text.toList

def decodeExact (size : Nat) (text : String) : Except Error Bytes :=
  if text.utf8ByteSize % 2 = 1 then .error .oddLength
  else if text.utf8ByteSize ≠ 2 * size then .error .wrongLength
  else pairs 0 text.toList

def quoted (byte : UInt8) : String :=
  match byte with
  | 0x00 => "'\\0'"
  | 0x09 => "'\\t'"
  | 0x0a => "'\\n'"
  | 0x0d => "'\\r'"
  | 0x27 => "'\\''"
  | 0x5c => "'\\\\'"
  | _ =>
    let n := byte.toNat
    if n < 0x20 ∨ (0x7f ≤ n ∧ n ≤ 0xa0) ∨ n = 0xad then
      "'\\u\x7b" ++ String.ofList (Nat.toDigits 16 n) ++ "\x7d'"
    else "'" ++ String.singleton (Char.ofNat n) ++ "'"

def Error.message : Error → String
  | .oddLength => "Odd number of digits"
  | .wrongLength => "Invalid string length"
  | .badCharacter byte position =>
    "Invalid character " ++ quoted byte ++ " at position " ++ toString position

end Lightpay.Hex
