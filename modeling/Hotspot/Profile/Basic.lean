/-
  Hotspot/Profile/Basic.lean
  ==========================
  **Installed profiles.**

  A profile is a configuration together with what the registry knows of it: the number it
  was installed under, the application that owns it, how it came to be there, and two
  flags of its life.  The number is never used again and names the profile's certificates
  and keys in the secure store.
-/
import Hotspot.Profile.Config

namespace Hotspot

structure AppIdentity where
  uid : UInt32
  package : String
deriving DecidableEq, Repr

def AppIdentity.toText (app : AppIdentity) : String :=
  app.package ++ "(" ++ toString app.uid.toNat ++ ")"

/-- How a profile came to be installed: for the user, or as an application's suggestion. -/
inductive ProfileSource where
  | saved
  | suggested
deriving DecidableEq, Repr

namespace ProfileSource

def ofSuggestion (isSuggestion : Bool) : ProfileSource :=
  if isSuggestion then .suggested else .saved

def name : ProfileSource → String
  | .saved => "Saved"
  | .suggested => "Suggested"

instance : JsonForm ProfileSource where
  toJson s := .str s.name
  ofJson? j := do
    let name ← j.enumName?
    [saved, suggested].find? fun s => s.name == name

end ProfileSource

structure Profile where
  config : ProfileConfig
  index : UInt64
  owner : AppIdentity
  source : ProfileSource
  credentialType : CredentialType
  autoJoin : Bool
  hasEverConnected : Bool
deriving DecidableEq

namespace Profile

/-- A profile as it is first installed: joined without asking, and never connected. -/
def new (config : ProfileConfig) (index : UInt64) (owner : AppIdentity) (source : ProfileSource)
    (credentialType : CredentialType) : Profile :=
  { config, index, owner, source, credentialType, autoJoin := true, hasEverConnected := false }

def fqdn (p : Profile) : String := p.config.fqdn

def isSaved (p : Profile) : Bool := p.source == .saved

/-- Whether a package owns the profile and installed it for the user. -/
def isSavedBy (p : Profile) (package : String) : Bool := p.isSaved && p.owner.package == package

def credentialAlias (p : Profile) : String := "HS2_" ++ toString p.index.toNat

/-- Whether the subscription has ended: from its expiration time on. -/
def isExpired (p : Profile) (now : UInt64) : Bool :=
  match p.config.expiration with
  | some expiration => expiration ≤ now
  | none => false

def withCarrier (p : Profile) (carrierId : Int32) : Profile :=
  { p with config := { p.config with carrierId := some carrierId } }

end Profile

/-- The installed profiles and the next number to give, as they are stored. -/
structure PersistedState where
  profiles : List Profile
  nextIndex : UInt64
deriving DecidableEq

def PersistedState.empty : PersistedState := { profiles := [], nextIndex := 0 }

/-! ### JSON forms -/

instance : JsonForm AppIdentity where
  toJson app := .obj [("uid", toJson app.uid), ("package", toJson app.package)]
  ofJson? j := do
    let ms ← j.fields? ["uid", "package"]
    some { uid := ← ms.required "uid" UInt32, package := ← ms.required "package" String }

instance : JsonForm Profile where
  toJson p := .obj [
    ("config", toJson p.config),
    ("index", toJson p.index),
    ("owner", toJson p.owner),
    ("source", toJson p.source),
    ("credential_type", toJson p.credentialType),
    ("auto_join", toJson p.autoJoin),
    ("has_ever_connected", toJson p.hasEverConnected)]
  ofJson? j := do
    let ms ← j.fields? ["config", "index", "owner", "source", "credential_type", "auto_join",
      "has_ever_connected"]
    some {
      config := ← ms.required "config" ProfileConfig
      index := ← ms.required "index" UInt64
      owner := ← ms.required "owner" AppIdentity
      source := ← ms.required "source" ProfileSource
      credentialType := ← ms.required "credential_type" CredentialType
      autoJoin := ← ms.required "auto_join" Bool
      hasEverConnected := ← ms.required "has_ever_connected" Bool }

instance : JsonForm PersistedState where
  toJson s := .obj [("profiles", toJson s.profiles), ("next_index", toJson s.nextIndex)]
  ofJson? j := do
    let ms ← j.fields? ["profiles", "next_index"]
    some {
      profiles := ← ms.required "profiles" (List Profile)
      nextIndex := ← ms.required "next_index" UInt64 }

end Hotspot
