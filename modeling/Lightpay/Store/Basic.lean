import Lightpay.Document.Payment
import Lightpay.Store.Table
import Lightpay.Store.Version

/-!
The payment store: a table of JSON texts, one payment under each hash, and the version it is marked
with. Every operation is one transaction. A refused one returns no store, so it changes nothing.
-/

namespace Lightpay

structure Store where
  version : Option String
  payments : Store.Table
deriving DecidableEq

abbrev Transition := Option Payment → Except Error Payment

namespace Store

def currentVersion : UInt32 := 0

inductive OpenError where
  | unknownVersion (version : UInt32)
  | unreadableVersion (fault : VersionFault)
deriving DecidableEq

def OpenError.message : OpenError → String
  | .unknownVersion version => "Unknown database version \x60" ++ toString version.toNat ++ "\x60"
  | .unreadableVersion fault => fault.message

def empty : Store := ⟨none, .empty⟩

/-- Checks the version, and marks a store that has none. -/
def opened (store : Store) : Except OpenError Store :=
  match store.version with
  | none => .ok { store with version := some (toString currentVersion.toNat) }
  | some text =>
    match readVersion text with
    | .error fault => .error (.unreadableVersion fault)
    | .ok version =>
      if version = currentVersion then .ok store else .error (.unknownVersion version)

def readPayment (text : String) : Except Error Payment :=
  match Payment.parse? text with
  | some payment => .ok payment
  | none => .error .unreadable

def get? (store : Store) (hash : PaymentHash) : Except Error (Option Payment) :=
  match store.payments.get? hash with
  | none => .ok none
  | some text => (readPayment text).map some

def all (store : Store) : Except Error (List Payment) :=
  store.payments.entries.mapM fun entry => readPayment entry.text

/-- Replaces the payment under a hash by what the transition makes of it. -/
def update (store : Store) (hash : PaymentHash) (transition : Transition) :
    Except Error (Payment × Store) := do
  let current ← store.get? hash
  let updated ← transition current
  if updated.info.hash ≠ hash then throw (.mismatchedKey hash)
  return (updated, { store with payments := store.payments.insert hash updated.text })

/-- Whether the payment under an entry is selected; an unreadable one is not. -/
def Entry.selected (selects : Payment → Bool) (entry : Entry) : Bool :=
  match Payment.parse? entry.text with
  | some payment => selects payment
  | none => false

/-- Removes the selected payments and counts them. All of the payments have to be readable. -/
def remove (store : Store) (selects : Payment → Bool) : Except Error (Nat × Store) := do
  let payments ← store.all
  return ((payments.filter selects).length,
    { store with payments := store.payments.filter fun entry => ¬ entry.selected selects })

/-- The store after a transaction; a refused one leaves it as it was. -/
def committed (store : Store) (result : Except Error (α × Store)) : Store :=
  match result with
  | .ok (_, reached) => reached
  | .error _ => store

end Store

end Lightpay
