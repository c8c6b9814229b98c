/-
  Hotspot/Profile/Config.lean
  ===========================
  **The configuration of a subscription, as an application hands it in.**

  Nearly everything in it may be missing; which configurations are complete enough to
  install is for `Hotspot/Profile/Validation.lean` to say.
-/
import Hotspot.Profile.Credential

namespace Hotspot

/-- The home service provider of a subscription. -/
structure HomeSp where
  fqdn : String
  friendlyName : String
  ois : List UInt64
deriving DecidableEq, Repr

def HomeSp.unknown : HomeSp := { fqdn := "", friendlyName := "", ois := [] }

structure ProfileConfig where
  homeSp : Option HomeSp
  credential : Option Credential
  /-- Not zero when the operator delivered the configuration to mend an older one. -/
  updateIdentifier : UInt32
  /-- When the subscription ends, in milliseconds since the epoch. -/
  expiration : Option UInt64
  serviceNames : OrderedMap String String
  carrierId : Option Int32
deriving DecidableEq

namespace ProfileConfig

def empty : ProfileConfig :=
  { homeSp := none, credential := none, updateIdentifier := 0, expiration := none,
    serviceNames := .empty, carrierId := none }

/-- The home domain, the empty text when there is no provider. -/
def fqdn (c : ProfileConfig) : String :=
  match c.homeSp with
  | some sp => sp.fqdn
  | none => ""

def caCertificate (c : ProfileConfig) : Option String := c.credential.bind (·.caCertificate)

def sim (c : ProfileConfig) : Option SimCredential := c.credential.bind (·.sim)

end ProfileConfig

instance : JsonForm HomeSp where
  toJson sp := .obj [
    ("fqdn", toJson sp.fqdn),
    ("friendly_name", toJson sp.friendlyName),
    ("roaming_consortium_ois", toJson sp.ois)]
  ofJson? j := do
    let ms ← j.fields? ["fqdn", "friendly_name", "roaming_consortium_ois"]
    some {
      fqdn := ← ms.required "fqdn" String
      friendlyName := ← ms.required "friendly_name" String
      ois := ← ms.withDefault "roaming_consortium_ois" [] }

instance : JsonForm ProfileConfig where
  toJson c := .obj [
    ("home_sp", toJson c.homeSp),
    ("credential", toJson c.credential),
    ("update_identifier", toJson c.updateIdentifier),
    ("subscription_expiration_ms", toJson c.expiration),
    ("service_friendly_names", toJson c.serviceNames),
    ("carrier_id", toJson c.carrierId)]
  ofJson? j := do
    let ms ← j.fields? ["home_sp", "credential", "update_identifier", "subscription_expiration_ms",
      "service_friendly_names", "carrier_id"]
    some {
      homeSp := ← ms.withDefault "home_sp" none
      credential := ← ms.withDefault "credential" none
      updateIdentifier := ← ms.withDefault "update_identifier" 0
      expiration := ← ms.withDefault "subscription_expiration_ms" none
      serviceNames := ← ms.withDefault "service_friendly_names" OrderedMap.empty
      carrierId := ← ms.withDefault "carrier_id" none }

end Hotspot
