/-
  Hotspot/Radio/IdentityKey.lean
  ==============================
  **What metadata is remembered under.**

  Access points that answer for one another share one key: those of one homogeneous
  extended service set (HESSID), or else those that advertise the same ANQP domain within
  one network name.  An access point with neither stands for itself.
-/
import Hotspot.Radio.MacAddress

namespace Hotspot

open Std

/-- The key of a set of access points with the same metadata. -/
structure IdentityKey where
  ssid : Option String
  bssid : UInt64
  hessid : UInt64
  domainId : UInt16
deriving DecidableEq, Repr, Inhabited

namespace IdentityKey

/-- Keys are ordered by network name (none first), radio address, HESSID and domain. -/
def order : IdentityKey → IdentityKey → Ordering :=
  compareLex (compareOn IdentityKey.ssid) <| compareLex (compareOn IdentityKey.bssid) <|
    compareLex (compareOn IdentityKey.hessid) (compareOn IdentityKey.domainId)

instance : Ord IdentityKey := ⟨order⟩

instance : TransOrd IdentityKey := inferInstanceAs (TransCmp (compareLex _ (compareLex _ _)))

instance : LawfulEqOrd IdentityKey where
  compare_self := ReflOrd.compare_self
  eq_of_compare {a b} h := by
    change order a b = .eq at h
    simp only [order, compareLex, compareOn, Ordering.then_eq_eq, Std.compare_eq_iff_eq] at h
    obtain ⟨h1, h2, h3, h4⟩ := h
    cases a; cases b; simp_all

/-- The key of an access point with the given advertised identity.  A HESSID counts for
    more than a domain, and either leaves the single radio out. -/
def build (ssid : String) (bssid : MacAddress) (hessid : UInt64) (domainId : UInt16) :
    IdentityKey :=
  if hessid ≠ 0 then { ssid := none, bssid := 0, hessid, domainId }
  else if domainId ≠ 0 then { ssid := some ssid, bssid := 0, hessid := 0, domainId }
  else { ssid := some ssid, bssid := bssid.value, hessid := 0, domainId := 0 }

def toText (k : IdentityKey) : String :=
  k.ssid.getD "<any>" ++ ":" ++ (MacAddress.ofBits k.bssid).toText ++ ":" ++
    String.ofList (Nat.toDigits 16 k.hessid.toNat) ++ ":" ++ toString k.domainId.toNat

instance : JsonForm IdentityKey where
  toJson k := .obj [
    ("ssid", toJson k.ssid),
    ("bssid", toJson k.bssid),
    ("hessid", toJson k.hessid),
    ("anqp_domain_id", toJson k.domainId)]
  ofJson? j := do
    let ms ← j.fields? ["ssid", "bssid", "hessid", "anqp_domain_id"]
    some {
      ssid := ← ms.withDefault "ssid" none
      bssid := ← ms.required "bssid" UInt64
      hessid := ← ms.required "hessid" UInt64
      domainId := ← ms.required "anqp_domain_id" UInt16 }

end IdentityKey

end Hotspot
