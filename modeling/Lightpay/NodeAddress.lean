import Lightpay.Endpoint
import Lightpay.Keys

/-!
Where a peer can be reached, and which services it offers. Two addresses name the same node when
they carry the same identity key, whatever their endpoints.
-/

namespace Lightpay

structure ServiceFlags where
  bits : UInt64
deriving DecidableEq, Repr

namespace ServiceFlags

def none : ServiceFlags := ⟨0⟩

def insert (flags more : ServiceFlags) : ServiceFlags := ⟨flags.bits ||| more.bits⟩

def Contains (flags some : ServiceFlags) : Prop := flags.bits &&& some.bits = some.bits

instance (flags some : ServiceFlags) : Decidable (flags.Contains some) :=
  inferInstanceAs (Decidable (_ = _))

end ServiceFlags

structure NodeAddress where
  identityKey : PublicKey
  services : ServiceFlags
  endpoint : Endpoint
deriving DecidableEq

namespace NodeAddress

def SameNode (a b : NodeAddress) : Prop := a.identityKey = b.identityKey

instance (a b : NodeAddress) : Decidable (a.SameNode b) := inferInstanceAs (Decidable (_ = _))

def nodes (addresses : List NodeAddress) : List PublicKey :=
  (addresses.map (·.identityKey)).eraseDups

def text (address : NodeAddress) : String :=
  address.identityKey.text ++ "@" ++ address.endpoint.text

end NodeAddress

end Lightpay
