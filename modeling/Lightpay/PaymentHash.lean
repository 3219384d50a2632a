import Lightpay.Bytes32
import Lightpay.Sha256

/-!
Payment hashes name payments; the preimage whose SHA-256 digest is the hash settles one.
-/

namespace Lightpay

structure PaymentHash where
  value : Bytes32
deriving DecidableEq

structure Preimage where
  value : Bytes32
deriving DecidableEq

namespace PaymentHash

instance : LT PaymentHash := ⟨fun a b => a.value < b.value⟩

instance (a b : PaymentHash) : Decidable (a < b) :=
  inferInstanceAs (Decidable (a.value < b.value))

def compare (a b : PaymentHash) : Ordering := compareOfLessAndEq a b

def text (hash : PaymentHash) : String := hash.value.text

def parse (text : String) : Except Hex.Error PaymentHash := (Bytes32.parse text).map .mk

end PaymentHash

namespace Preimage

def hash (preimage : Preimage) : PaymentHash :=
  ⟨⟨Sha256.digest preimage.value.bytes, Sha256.length_digest _⟩⟩

def Matches (preimage : Preimage) (hash : PaymentHash) : Prop := preimage.hash = hash

instance (preimage : Preimage) (hash : PaymentHash) : Decidable (preimage.Matches hash) :=
  inferInstanceAs (Decidable (preimage.hash = hash))

def text (preimage : Preimage) : String := preimage.value.text

def parse (text : String) : Except Hex.Error Preimage := (Bytes32.parse text).map .mk

end Preimage

end Lightpay
