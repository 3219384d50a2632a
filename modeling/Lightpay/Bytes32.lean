import Lightpay.Hex

/-!
Strings of exactly thirty-two bytes, the carrier of hashes, preimages and payment addresses.
They are ordered byte by byte and written as sixty-four hexadecimal digits.
-/

namespace Lightpay

structure Bytes32 where
  bytes : Bytes
  length_bytes : bytes.length = 32
deriving DecidableEq

namespace Bytes32

instance : LT Bytes32 := ⟨fun a b => a.bytes < b.bytes⟩

instance (a b : Bytes32) : Decidable (a < b) :=
  inferInstanceAs (Decidable (a.bytes < b.bytes))

def ofBytes? (bytes : Bytes) : Option Bytes32 :=
  if h : bytes.length = 32 then some ⟨bytes, h⟩ else none

def text (value : Bytes32) : String :=
  Hex.encode value.bytes

/-- Reads sixty-four digits of either case. -/
def parse (text : String) : Except Hex.Error Bytes32 :=
  match Hex.decodeExact 32 text with
  | .ok bytes => if h : bytes.length = 32 then .ok ⟨bytes, h⟩ else .error .wrongLength
  | .error e => .error e

end Bytes32

end Lightpay
