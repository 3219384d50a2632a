/-!
TCP endpoints: an IPv4 or IPv6 address with a port, and for IPv6 the scope it belongs to.
IPv6 addresses are written with the first longest run of at least two zero groups left out, and
with a dotted tail when they hold a mapped IPv4 address (RFC 5952). Reading is more lenient:
any run may be left out, and the last two groups may always be dotted.
-/

namespace Lightpay

structure Ipv4 where
  a : UInt8
  b : UInt8
  c : UInt8
  d : UInt8
deriving DecidableEq, Repr

structure Ipv6 where
  groups : List UInt16
  length_groups : groups.length = 8
deriving DecidableEq, Repr

inductive Endpoint where
  | v4 (address : Ipv4) (port : UInt16)
  | v6 (address : Ipv6) (scope : UInt32) (port : UInt16)
deriving DecidableEq, Repr

namespace Ipv4

def emit (address : Ipv4) (rest : List Char) : List Char :=
  Nat.toDigits 10 address.a.toNat ++ '.' :: (Nat.toDigits 10 address.b.toNat ++ '.' ::
    (Nat.toDigits 10 address.c.toNat ++ '.' :: (Nat.toDigits 10 address.d.toNat ++ rest)))

def groups (address : Ipv4) : List UInt16 :=
  [UInt16.ofNat (256 * address.a.toNat + address.b.toNat),
    UInt16.ofNat (256 * address.c.toNat + address.d.toNat)]

def ofGroups (high low : UInt16) : Ipv4 :=
  ⟨UInt8.ofNat (high.toNat / 256), UInt8.ofNat high.toNat,
    UInt8.ofNat (low.toNat / 256), UInt8.ofNat low.toNat⟩

end Ipv4

namespace Ipv6

def emitGroups : List UInt16 → List Char → List Char
  | [], rest => rest
  | [group], rest => Nat.toDigits 16 group.toNat ++ rest
  | group :: groups, rest => Nat.toDigits 16 group.toNat ++ ':' :: emitGroups groups rest

def zeros (groups : List UInt16) : Nat :=
  (groups.takeWhile (· = 0)).length

def longestZeros (start : Nat) (best : Nat × Nat) : List UInt16 → Nat × Nat
  | [] => best
  | group :: groups =>
    let run := zeros (group :: groups)
    longestZeros (start + 1) (if best.2 < run then (start, run) else best) groups

def emit (address : Ipv6) (rest : List Char) : List Char :=
  match address.groups with
  | [0, 0, 0, 0, 0, 0xffff, high, low] =>
    "::ffff:".toList ++ (Ipv4.ofGroups high low).emit rest
  | groups =>
    let (start, run) := longestZeros 0 (0, 0) groups
    if 1 < run then
      emitGroups (groups.take start) (':' :: ':' :: emitGroups (groups.drop (start + run)) rest)
    else emitGroups groups rest

end Ipv6

namespace Endpoint

def chars : Endpoint → List Char
  | v4 address port => address.emit (':' :: Nat.toDigits 10 port.toNat)
  | v6 address scope port =>
    '[' :: address.emit
      ((if scope = 0 then [] else '%' :: Nat.toDigits 10 scope.toNat) ++
        ']' :: ':' :: Nat.toDigits 10 port.toNat)

def text (endpoint : Endpoint) : String :=
  String.ofList endpoint.chars

end Endpoint

abbrev Endpoint.Reader (α : Type) := List Char → Option (α × List Char)

namespace Endpoint.Reader

def digitValue? (radix : Nat) (c : Char) : Option Nat :=
  let n :=
    if c.isDigit then c.toNat - 48
    else if 'a' ≤ c ∧ c ≤ 'f' then c.toNat - 87
    else if 'A' ≤ c ∧ c ≤ 'F' then c.toNat - 55
    else 16
  if n < radix then some n else none

def digits (radix : Nat) : List Char → List Nat × List Char
  | [] => ([], [])
  | c :: rest =>
    match digitValue? radix c with
    | none => ([], c :: rest)
    | some n => let (found, rest) := digits radix rest; (n :: found, rest)

def number (radix bound : Nat) : Reader Nat := fun cs =>
  let (found, rest) := digits radix cs
  let n := found.foldl (fun n digit => radix * n + digit) 0
  if found.isEmpty ∨ bound ≤ n then none else some (n, rest)

/-- A decimal byte of at most three digits without idle zeros. -/
def octet : Reader UInt8 := fun cs =>
  let (found, _) := digits 10 cs
  if 3 < found.length ∨ (found.head? = some 0 ∧ found.length ≠ 1) then none
  else (number 10 256 cs).map fun (n, rest) => (UInt8.ofNat n, rest)

/-- A group of at most four hexadecimal digits. -/
def group : Reader UInt16 := fun cs =>
  if 4 < (digits 16 cs).1.length then none
  else (number 16 65536 cs).map fun (n, rest) => (UInt16.ofNat n, rest)

def expect (c : Char) : List Char → Option (List Char)
  | [] => none
  | d :: rest => if c = d then some rest else none

def dotted : Reader Ipv4 := fun cs => do
  let (a, cs) ← octet cs
  let cs ← expect '.' cs
  let (b, cs) ← octet cs
  let cs ← expect '.' cs
  let (c, cs) ← octet cs
  let cs ← expect '.' cs
  let (d, cs) ← octet cs
  return (⟨a, b, c, d⟩, cs)

def afterColon (first : Bool) (read : Reader α) : Reader α := fun cs =>
  if first then read cs else (expect ':' cs).bind read

def groups : (room : Nat) → (first : Bool) → List Char → List UInt16 × Bool × List Char
  | 0, _, cs => ([], false, cs)
  | room + 1, first, cs =>
    match if room = 0 then none else afterColon first dotted cs with
    | some (address, rest) => (address.groups, true, rest)
    | none =>
      match afterColon first group cs with
      | none => ([], false, cs)
      | some (found, rest) =>
        let (more, dotted, rest) := groups room false rest
        (found :: more, dotted, rest)

def ofGroups? (groups : List UInt16) : Option Ipv6 :=
  if h : groups.length = 8 then some ⟨groups, h⟩ else none

/-- Eight groups, or fewer around a double colon; no dotted groups stand in front of it. -/
def ipv6 : Reader Ipv6 := fun cs =>
  let (head, dottedHead, rest) := groups 8 true cs
  if head.length = 8 then (ofGroups? head).map (·, rest)
  else if dottedHead then none
  else do
    let rest ← expect ':' rest
    let rest ← expect ':' rest
    let (tail, _, rest) := groups (7 - head.length) true rest
    let address ← ofGroups? (head ++ List.replicate (8 - head.length - tail.length) 0 ++ tail)
    return (address, rest)

def port : Reader UInt16 := fun cs => do
  let cs ← expect ':' cs
  let (n, cs) ← number 10 65536 cs
  return (UInt16.ofNat n, cs)

def scope (cs : List Char) : UInt32 × List Char :=
  match (expect '%' cs).bind (number 10 UInt32.size) with
  | some (n, rest) => (UInt32.ofNat n, rest)
  | none => (0, cs)

def endpoint4 : Reader Endpoint := fun cs => do
  let (address, cs) ← dotted cs
  let (port, cs) ← port cs
  return (.v4 address port, cs)

def endpoint6 : Reader Endpoint := fun cs => do
  let cs ← expect '[' cs
  let (address, cs) ← ipv6 cs
  let (scope, cs) := scope cs
  let cs ← expect ']' cs
  let (port, cs) ← port cs
  return (.v6 address scope port, cs)

end Endpoint.Reader

namespace Endpoint

def parse? (text : String) : Option Endpoint :=
  match Reader.endpoint4 text.toList <|> Reader.endpoint6 text.toList with
  | some (endpoint, []) => some endpoint
  | _ => none

end Endpoint

end Lightpay
