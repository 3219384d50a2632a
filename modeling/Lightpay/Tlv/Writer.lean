import Lightpay.Tlv.Integer
import Lightpay.Tlv.Stream

/-!
Building a stream record by record. A record out of order is refused and leaves no trace.
-/

namespace Lightpay.Tlv

structure Writer where
  bytes : Bytes
  last : Option UInt64
deriving DecidableEq, Repr

namespace Writer

def empty : Writer := ⟨[], none⟩

def put (writer : Writer) (type : UInt64) (value : Bytes) : Except Error Writer := do
  Record.checkOrder writer.last type
  return ⟨writer.bytes ++ Record.encode ⟨type, value⟩, some type⟩

def putTruncated (writer : Writer) (type n : UInt64) : Except Error Writer :=
  writer.put type (truncated n)

def putU64 (writer : Writer) (type n : UInt64) : Except Error Writer :=
  writer.put type (fixed n)

end Writer

end Lightpay.Tlv
