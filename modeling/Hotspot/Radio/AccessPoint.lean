/-
  Hotspot/Radio/AccessPoint.lean
  ==============================
  **An access point as a scan reports it, and the key its metadata is under.**

  A scan may report the radio address as any text or not at all, and may have read the
  ANQP domain out of the beacon itself; that value then counts for more than the beacon's
  own indication, and stands in for one that is cut off.
-/
import Hotspot.Radio.Beacon
import Hotspot.Radio.IdentityKey

namespace Hotspot

/-- A record of a scan. -/
structure AccessPoint where
  ssid : String
  bssid : Option String
  hessid : UInt64
  domainId : Option UInt16
  passpoint : Bool
  elements : List InformationElement
deriving DecidableEq, Repr, Inhabited

/-- An access point whose metadata can be asked for: where to ask, the key to remember the
    answer under, and the release it advertises. -/
structure QueryTarget where
  bssid : MacAddress
  key : IdentityKey
  release : Option Release
deriving DecidableEq, Repr

namespace AccessPoint

def ofNames (ssid bssid : String) : AccessPoint :=
  { ssid, bssid := some bssid, hessid := 0, domainId := none, passpoint := true, elements := [] }

def address? (ap : AccessPoint) : Option MacAddress :=
  ap.bssid.bind fun text => (MacAddress.ofText? text).toOption

def indication (ap : AccessPoint) : Except Truncated (Option Indication) :=
  Indication.find ap.elements

def roamingConsortium (ap : AccessPoint) : Option RoamingConsortium :=
  RoamingConsortium.find ap.elements

/-- The indication as far as the key needs it: one that is cut off counts as absent when
    the scan itself gives the domain, and otherwise makes the access point unusable. -/
def usableIndication? (ap : AccessPoint) : Option (Option Indication) :=
  match ap.indication with
  | .ok indication => some indication
  | .error _ => if ap.domainId.isSome then some none else none

/-- Where and under which key to ask for metadata. -/
def queryTarget? (ap : AccessPoint) : Option QueryTarget := do
  if !ap.passpoint then none
  let bssid ← ap.address?
  let indication ← ap.usableIndication?
  let domainId := (ap.domainId <|> indication.bind (·.domainId)).getD 0
  some {
    bssid
    key := .build ap.ssid bssid ap.hessid domainId
    release := indication.map (·.release) }

end AccessPoint

instance : JsonForm AccessPoint where
  toJson ap := .obj [
    ("ssid", toJson ap.ssid),
    ("bssid", toJson ap.bssid),
    ("hessid", toJson ap.hessid),
    ("anqp_domain_id", toJson ap.domainId),
    ("passpoint", toJson ap.passpoint),
    ("information_elements", toJson ap.elements)]
  ofJson? j := do
    let ms ← j.fields? ["ssid", "bssid", "hessid", "anqp_domain_id", "passpoint",
      "information_elements"]
    some {
      ssid := ← ms.required "ssid" String
      bssid := ← ms.withDefault "bssid" none
      hessid := ← ms.withDefault "hessid" 0
      domainId := ← ms.withDefault "anqp_domain_id" none
      passpoint := ← ms.withDefault "passpoint" false
      elements := ← ms.withDefault "information_elements" [] }

end Hotspot
