/-
  Hotspot/Legacy/Entry.lean
  =========================
  **Network entries from before there were profiles.**

  Older releases kept a subscription as a plain enterprise network, with its credential
  spelled out by an EAP method, an inner method and references into the secure store.
-/
import Hotspot.Profile.Basic

namespace Hotspot.Legacy

inductive EapMethod where
  | peap
  | tls
  | ttls
  | pwd
  | sim
  | aka
  | akaPrime
deriving DecidableEq, Repr

namespace EapMethod

def all : List EapMethod := [.peap, .tls, .ttls, .pwd, .sim, .aka, .akaPrime]

def name : EapMethod → String
  | .peap => "PEAP"
  | .tls => "TLS"
  | .ttls => "TTLS"
  | .pwd => "PWD"
  | .sim => "SIM"
  | .aka => "AKA"
  | .akaPrime => "AKA_PRIME"

def word : EapMethod → String
  | .peap => "Peap"
  | .tls => "Tls"
  | .ttls => "Ttls"
  | .pwd => "Pwd"
  | .sim => "Sim"
  | .aka => "Aka"
  | .akaPrime => "AkaPrime"

instance : JsonForm EapMethod where
  toJson m := .str m.name
  ofJson? j := do
    let name ← j.enumName?
    all.find? fun m => m.name == name

end EapMethod

/-- The method that runs inside the tunnel of an entry's EAP method. -/
inductive Phase2 where
  | none
  | pap
  | mschap
  | mschapv2
  | gtc
deriving DecidableEq, Repr

namespace Phase2

def all : List Phase2 := [.none, .pap, .mschap, .mschapv2, .gtc]

def name : Phase2 → String
  | .none => "NONE"
  | .pap => "PAP"
  | .mschap => "MSCHAP"
  | .mschapv2 => "MSCHAPV2"
  | .gtc => "GTC"

def word : Phase2 → String
  | .none => "None"
  | .pap => "Pap"
  | .mschap => "Mschap"
  | .mschapv2 => "Mschapv2"
  | .gtc => "Gtc"

def innerMethod? : Phase2 → Option String
  | .pap => some "PAP"
  | .mschap => some "MS-CHAP"
  | .mschapv2 => some "MS-CHAP-V2"
  | .none => Option.none
  | .gtc => Option.none

instance : JsonForm Phase2 where
  toJson m := .str m.name
  ofJson? j := do
    let name ← j.enumName?
    all.find? fun m => m.name == name

end Phase2

/-- The enterprise section of an entry. -/
structure Enterprise where
  eapMethod : EapMethod
  phase2 : Phase2
  identity : String
  password : String
  realm : String
  /-- The subscriber number of a SIM entry, or its leading digits. -/
  plmn : String
  caAlias : Option String
  clientAlias : Option String
deriving DecidableEq, Repr

structure Entry where
  fqdn : String
  friendlyName : String
  ois : List UInt64
  creatorUid : UInt32
  /-- Empty when the package that made the entry is not known. -/
  creatorPackage : String
  enterprise : Enterprise
deriving DecidableEq, Repr

def Entry.creator (e : Entry) : AppIdentity := { uid := e.creatorUid, package := e.creatorPackage }

instance : JsonForm Enterprise where
  toJson e := .obj [
    ("eap_method", toJson e.eapMethod),
    ("phase2_method", toJson e.phase2),
    ("identity", toJson e.identity),
    ("password", toJson e.password),
    ("realm", toJson e.realm),
    ("plmn", toJson e.plmn),
    ("ca_certificate_alias", toJson e.caAlias),
    ("client_certificate_alias", toJson e.clientAlias)]
  ofJson? j := do
    let ms ← j.fields? ["eap_method", "phase2_method", "identity", "password", "realm", "plmn",
      "ca_certificate_alias", "client_certificate_alias"]
    some {
      eapMethod := ← ms.required "eap_method" EapMethod
      phase2 := ← ms.withDefault "phase2_method" Phase2.none
      identity := ← ms.withDefault "identity" ""
      password := ← ms.withDefault "password" ""
      realm := ← ms.withDefault "realm" ""
      plmn := ← ms.withDefault "plmn" ""
      caAlias := ← ms.withDefault "ca_certificate_alias" Option.none
      clientAlias := ← ms.withDefault "client_certificate_alias" Option.none }

instance : JsonForm Entry where
  toJson e := .obj [
    ("fqdn", toJson e.fqdn),
    ("provider_friendly_name", toJson e.friendlyName),
    ("roaming_consortium_ois", toJson e.ois),
    ("creator_uid", toJson e.creatorUid),
    ("creator_package", toJson e.creatorPackage),
    ("enterprise", toJson e.enterprise)]
  ofJson? j := do
    let ms ← j.fields? ["fqdn", "provider_friendly_name", "roaming_consortium_ois", "creator_uid",
      "creator_package", "enterprise"]
    some {
      fqdn := ← ms.required "fqdn" String
      friendlyName := ← ms.withDefault "provider_friendly_name" ""
      ois := ← ms.withDefault "roaming_consortium_ois" []
      creatorUid := ← ms.withDefault "creator_uid" 0
      creatorPackage := ← ms.withDefault "creator_package" ""
      enterprise := ← ms.required "enterprise" Enterprise }

end Hotspot.Legacy
