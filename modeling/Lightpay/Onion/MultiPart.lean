import Lightpay.Amount
import Lightpay.Bytes32
import Lightpay.Tlv.Integer

/-!
The record that ties the parts of one payment together: the payee's payment address and the
total to wait for, a truncated integer.
-/

namespace Lightpay.Onion

structure MultiPart where
  address : Bytes32
  total : Amount
deriving DecidableEq

namespace MultiPart

def recordType : UInt64 := 8

def encode (part : MultiPart) : Bytes :=
  part.address.bytes ++ Tlv.truncated part.total.msat

def decode (value : Bytes) : Except Tlv.Error MultiPart :=
  match Bytes32.ofBytes? (value.take 32) with
  | none => .error (.invalidLength recordType value.length)
  | some address =>
    if 40 < value.length then .error (.invalidLength recordType value.length)
    else do
      let total ← Tlv.readTu64 recordType (value.drop 32)
      return ⟨address, ⟨total⟩⟩

end MultiPart

end Lightpay.Onion
