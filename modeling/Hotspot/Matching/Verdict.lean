/-
  Hotspot/Matching/Verdict.lean
  =============================
  **Does a network belong to a subscriber's provider, or to a partner of it?**

  A network is *home* when it lists the subscriber's home domain.  It is a *roaming*
  network when it lists one of the provider's organisation identifiers or the
  credential's realm.  For a SIM card the subscriber number counts as well: a domain can
  be derived from it, and its leading digits are those of the operator's network (PLMN).
  Names are compared without regard to the case of ASCII letters, digits as they are.
-/
import Hotspot.Profile.Basic
import Hotspot.Radio.Anqp
import Hotspot.Radio.Beacon

namespace Hotspot

open Std

/-- What a network is to a profile. -/
inductive Verdict where
  | home
  | roaming
  | none
deriving DecidableEq, Repr

def Verdict.name : Verdict → String
  | .home => "Home"
  | .roaming => "Roaming"
  | .none => "None"

/-- The classes that matched access points are grouped in. -/
inductive NetworkClass where
  | home
  | roaming
deriving DecidableEq, Repr

namespace NetworkClass

def verdict : NetworkClass → Verdict
  | .home => .home
  | .roaming => .roaming

def name : NetworkClass → String
  | .home => "HomeNetwork"
  | .roaming => "RoamingNetwork"

/-- Home networks come before roaming ones. -/
def rank : NetworkClass → Nat
  | .home => 0
  | .roaming => 1

instance : Ord NetworkClass := ⟨compareOn rank⟩

instance : TransOrd NetworkClass := inferInstanceAs (TransCmp (compareOn rank))

instance : LawfulEqOrd NetworkClass where
  compare_self := compare_self (α := Nat)
  eq_of_compare {a b} h := by
    have hr : a.rank = b.rank := Std.compare_eq_iff_eq.1 h
    cases a <;> cases b <;> simp_all [rank]

end NetworkClass

def Verdict.class? : Verdict → Option NetworkClass
  | .home => some .home
  | .roaming => some .roaming
  | .none => Option.none

/-! ### Rules -/

/-- Equality of texts without regard to the case of ASCII letters. -/
def sameName (a b : String) : Bool := a.toList.map Char.toLower == b.toList.map Char.toLower

/-- Whether a network lists a domain.  The empty domain is never listed. -/
def listsDomain (es : Anqp.Elements) (domain : String) : Bool :=
  domain != "" && (es.names .domainName).any fun d => sameName d domain

def listsRealm (es : Anqp.Elements) (p : Profile) : Bool :=
  match p.config.credential with
  | some c => (es.names .naiRealm).any fun r => sameName r c.realm
  | none => false

def beaconOis : Option RoamingConsortium → List UInt64
  | some rc => rc.ois
  | none => []

/-- Whether a network lists an organisation identifier of a profile's provider, in its
    metadata or in its beacon. -/
def listsOi (es : Anqp.Elements) (rc : Option RoamingConsortium) (p : Profile) : Bool :=
  match p.config.homeSp with
  | some sp => sp.ois.any fun oi => es.ois.contains oi || (beaconOis rc).contains oi
  | none => false

/-- Whether a network lists the operator of a subscriber number: one of its networks and
    the number begin alike, as far as both go.  No number, no operator. -/
def listsPlmn (es : Anqp.Elements) (number : List Char) : Bool :=
  !number.isEmpty && (es.names .threeGppNetwork).any fun plmn =>
    plmn.toList.isPrefixOf number || number.isPrefixOf plmn.toList

/-- The domain of the operator of a subscriber number: three digits of country code, then
    three of network code or a zero and two.  Fewer than five digits, or anything but
    digits, name no operator. -/
def threeGppDomain? (number : List Char) : Option String :=
  if number.length < 5 || !number.all Char.isDigit then none
  else
    let country := number.take 3
    let rest := number.drop 3
    let network := if 3 ≤ rest.length then rest.take 3 else '0' :: rest
    some ("wlan.mnc" ++ String.ofList network ++ ".mcc" ++ String.ofList country ++
      ".3gppnetwork.org")

/-! ### Verdicts -/

/-- A way to judge a network by its metadata and its beacon. -/
abbrev Matcher := Profile → Anqp.Elements → Option RoamingConsortium → Verdict

/-- A way to judge for each credential variant. -/
abbrev Matchers := CredentialType → Matcher

def realmVerdict : Matcher := fun p es rc =>
  if listsDomain es p.fqdn then .home
  else if listsOi es rc p || listsRealm es p then .roaming
  else .none

/-- The leading digits of a profile's subscriber number, none without a SIM card. -/
def Profile.subscriberNumber (p : Profile) : List Char :=
  match p.config.sim with
  | some sim => sim.stem
  | none => []

def listsOperator (es : Anqp.Elements) (number : List Char) : Bool :=
  match threeGppDomain? number with
  | some domain => listsDomain es domain
  | none => false

def simVerdict : Matcher := fun p es rc =>
  if listsDomain es p.fqdn || listsOperator es p.subscriberNumber then .home
  else if listsOi es rc p || listsRealm es p || listsPlmn es p.subscriberNumber then .roaming
  else .none

def Matchers.default : Matchers
  | .user => realmVerdict
  | .sim => simVerdict
  | .certificate => realmVerdict

end Hotspot
