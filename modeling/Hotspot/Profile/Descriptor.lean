/-
  Hotspot/Profile/Descriptor.lean
  ===============================
  **The network entry that a profile stands for.**

  The store of network configurations knows a profile by its descriptor, and keeps it
  under a key made of the home domain and the source.  Two sources of one domain have
  different keys, so a replacement that changes the source leaves an entry to remove.
-/
import Hotspot.Profile.Basic

namespace Hotspot

/-- The network entry derived from a profile. -/
structure NetworkDescriptor where
  key : String
  fqdn : String
  friendlyName : String
  realm : String
  ois : List UInt64
  credentialType : CredentialType
  eapType : EapType
  carrierId : Option Int32
  creator : AppIdentity
  source : ProfileSource
deriving DecidableEq, Repr

namespace NetworkDescriptor

def keyTail : ProfileSource → String
  | .saved => "WPA_EAP"
  | .suggested => "WPA_EAP:suggestion"

def keyFor (fqdn : String) (source : ProfileSource) : String :=
  "\"" ++ fqdn ++ "\"" ++ keyTail source

end NetworkDescriptor

def Profile.descriptor (p : Profile) : NetworkDescriptor :=
  let sp := p.config.homeSp.getD .unknown
  { key := NetworkDescriptor.keyFor sp.fqdn p.source
    fqdn := sp.fqdn
    friendlyName := sp.friendlyName
    realm := (p.config.credential.map (·.realm)).getD ""
    ois := sp.ois
    credentialType := p.credentialType
    eapType := (p.config.credential.map (·.eapType)).getD 0
    carrierId := p.config.carrierId
    creator := p.owner
    source := p.source }

instance : JsonForm NetworkDescriptor where
  toJson d := .obj [
    ("key", toJson d.key),
    ("fqdn", toJson d.fqdn),
    ("friendly_name", toJson d.friendlyName),
    ("realm", toJson d.realm),
    ("roaming_consortium_ois", toJson d.ois),
    ("credential_type", toJson d.credentialType),
    ("eap_method", toJson d.eapType),
    ("carrier_id", toJson d.carrierId),
    ("creator", toJson d.creator),
    ("source", toJson d.source)]
  ofJson? j := do
    let ms ← j.fields? ["key", "fqdn", "friendly_name", "realm", "roaming_consortium_ois",
      "credential_type", "eap_method", "carrier_id", "creator", "source"]
    some {
      key := ← ms.required "key" String
      fqdn := ← ms.required "fqdn" String
      friendlyName := ← ms.required "friendly_name" String
      realm := ← ms.required "realm" String
      ois := ← ms.required "roaming_consortium_ois" (List UInt64)
      credentialType := ← ms.required "credential_type" CredentialType
      eapType := ← ms.required "eap_method" EapType
      carrierId := ← ms.withDefault "carrier_id" none
      creator := ← ms.required "creator" AppIdentity
      source := ← ms.required "source" ProfileSource }

end Hotspot
