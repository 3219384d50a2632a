import Lightpay.Bytes
import Lightpay.Tlv.Error

/-!
Integers as record values: fixed eight bytes, or truncated, without zero bytes in front, so that
zero is the empty value.
-/

namespace Lightpay.Tlv

def readTruncated (width : Nat) (type : UInt64) (value : Bytes) : Except Error Nat :=
  if width < value.length then .error (.invalidLength type value.length)
  else if value.head? = some 0 then .error (.nonMinimal type)
  else .ok (Bytes.toNat value)

def readTu64 (type : UInt64) (value : Bytes) : Except Error UInt64 :=
  (readTruncated 8 type value).map UInt64.ofNat

def readTu32 (type : UInt64) (value : Bytes) : Except Error UInt32 :=
  (readTruncated 4 type value).map UInt32.ofNat

def readU64 (type : UInt64) (value : Bytes) : Except Error UInt64 :=
  if value.length = 8 then .ok (UInt64.ofNat (Bytes.toNat value))
  else .error (.invalidLength type value.length)

def truncated (n : UInt64) : Bytes :=
  (Bytes.ofNat 8 n.toNat).dropWhile (· = 0)

def fixed (n : UInt64) : Bytes :=
  Bytes.ofNat 8 n.toNat

end Lightpay.Tlv
