import Lightpay.Tlv.BigSize

/-!
Streams of records: type, length and value, the types strictly increasing. Records of unknown odd
type are skipped; one of unknown even type ends the reading.
-/

namespace Lightpay.Tlv

structure Record where
  type : UInt64
  value : Bytes
deriving DecidableEq, Repr

namespace Record

def encode (record : Record) : Bytes :=
  BigSize.encode record.type ++ BigSize.encode (UInt64.ofNat record.value.length) ++ record.value

def checkOrder (previous : Option UInt64) (type : UInt64) : Except Error Unit :=
  match previous with
  | none => .ok ()
  | some p => if p < type then .ok () else .error (.unordered p type)

/-- Reads one record from the front; its type is judged before its length is read. -/
def read (previous : Option UInt64) (bytes : Bytes) : Except Error (Record × Bytes) := do
  let (type, bytes) ← BigSize.read bytes
  checkOrder previous type
  let (length, bytes) ← BigSize.read bytes
  let value := bytes.take length.toNat
  if value.length < length.toNat then throw .unexpectedEnd
  return (⟨type, value⟩, bytes.drop length.toNat)

theorem length_rest_lt {previous : Option UInt64} {bytes rest : Bytes} {record : Record}
    (h : read previous bytes = .ok (record, rest)) : rest.length < bytes.length := by
  simp only [read, bind, Except.bind] at h
  split at h
  · cases h
  · rename_i first hfirst
    obtain ⟨type, afterType⟩ := first
    split at h
    · cases h
    · split at h
      · cases h
      · rename_i second hsecond
        obtain ⟨length, afterLength⟩ := second
        have h₁ : afterType.length < bytes.length := BigSize.length_rest_lt hfirst
        have h₂ : afterLength.length < afterType.length := BigSize.length_rest_lt hsecond
        split at h
        · cases h
        · cases h
          simp only [List.length_drop]
          omega

end Record

structure Stream where
  records : List Record
deriving DecidableEq, Repr

namespace Stream

def decodeFrom (known : List UInt64) (previous : Option UInt64) (bytes : Bytes) :
    List Record × Except Error Unit :=
  if bytes = [] then ([], .ok ())
  else
    match _ : Record.read previous bytes with
    | .error e => ([], .error e)
    | .ok (record, rest) =>
      if record.type ∈ known then
        let (records, result) := decodeFrom known (some record.type) rest
        (record :: records, result)
      else if record.type % 2 = 0 then ([], .error (.unknownRequired record.type))
      else decodeFrom known (some record.type) rest
termination_by bytes.length
decreasing_by all_goals exact Record.length_rest_lt ‹_›

/-- The known records up to the first failure, together with the failure. -/
def decodePartial (known : List UInt64) (bytes : Bytes) : Stream × Except Error Unit :=
  let (records, result) := decodeFrom known none bytes
  (⟨records⟩, result)

def decode (known : List UInt64) (bytes : Bytes) : Except Error Stream :=
  match decodePartial known bytes with
  | (stream, .ok ()) => .ok stream
  | (_, .error e) => .error e

def types (stream : Stream) : List UInt64 :=
  stream.records.map (·.type)

def get? (stream : Stream) (type : UInt64) : Option Bytes :=
  (stream.records.find? fun record => record.type = type).map (·.value)

end Stream

end Lightpay.Tlv
