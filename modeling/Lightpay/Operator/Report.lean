import Lightpay.Document.Payment
import Lightpay.Json.Printer
import Lightpay.Lifecycle
import Lightpay.Operator.CommandLine

/-!
What the commands of the operator tool print, and what they leave in the store.
-/

namespace Lightpay.Operator

namespace Report

def summary (payment : Payment) : String :=
  payment.info.hash.text ++ " " ++ payment.status.text ++ " " ++ payment.info.value.text ++
    " attempts=" ++ toString payment.attempts.length ++
    " in_flight=" ++ toString payment.inFlightAttempts.length

def lines (texts : List String) : String :=
  String.join (texts.map (· ++ "\n"))

def count (removed : Nat) : String := "Deleted " ++ toString removed ++ " payments"

def details (store : Store) (hash : PaymentHash) : Except Error String := do
  match ← store.status hash with
  | .unknown => return hash.text ++ " " ++ Status.unknown.text
  | _ => return (← store.fetch hash).toJson.printIndented

end Report

inductive Command.Fault where
  | badHash (error : Hex.Error)
  | refused (error : Error)
deriving DecidableEq

def Command.Fault.message : Command.Fault → String
  | .badHash error => "Invalid payment hash: " ++ error.message
  | .refused error => error.message

/-- The lines that a command prints, and the store it leaves. -/
def Command.execute (store : Store) : Command → Except Command.Fault (List String × Store)
  | .list => (store.all.mapError .refused).map fun ps => (ps.map Report.summary, store)
  | .listInFlight =>
    (store.allInFlight.mapError .refused).map fun ps => (ps.map Report.summary, store)
  | .status text => do
    let hash ← (PaymentHash.parse text).mapError .badHash
    let found ← (Report.details store hash).mapError .refused
    return ([found], store)
  | .deleteResolved =>
    (store.deleteResolved.mapError .refused).map fun (n, store) => ([Report.count n], store)

end Lightpay.Operator
