/-
  Hotspot/Matching/Precedence.lean
  ================================
  **Which profiles apply to a network.**

  Profiles whose subscription has ended do not apply at all.  Of the others, those the
  network is home to come first: when there is one, roaming matches do not apply.
-/
import Hotspot.Matching.Verdict
import Hotspot.Radio.AccessPoint
import Hotspot.Registry

namespace Hotspot

/-- A profile that applies to a network, and what the network is to it. -/
structure ProfileMatch where
  profile : Profile
  networkClass : NetworkClass
deriving DecidableEq

/-- The match of a profile with a network, unless the subscription has ended or the network
    is nothing to it. -/
def Profile.match? (matchers : Matchers) (now : UInt64) (es : Anqp.Elements)
    (rc : Option RoamingConsortium) (p : Profile) : Option ProfileMatch :=
  if p.isExpired now then none
  else (matchers p.credentialType p es rc).class?.map fun networkClass =>
    { profile := p, networkClass }

/-- Home matches alone if there is one, else all matches. -/
def preferHome (found : List ProfileMatch) : List ProfileMatch :=
  let home := found.filter fun f => f.networkClass = .home
  if home.isEmpty then found else home

def Registry.applicable (r : Registry) (matchers : Matchers) (now : UInt64) (es : Anqp.Elements)
    (rc : Option RoamingConsortium) : List ProfileMatch :=
  preferHome (r.profiles.values.filterMap (Profile.match? matchers now es rc))

/-- Matched access points by home domain and class. -/
abbrev MatchGroups := OrderedMap String (OrderedMap NetworkClass (List AccessPoint))

def MatchGroups.add (g : MatchGroups) (fqdn : String) (c : NetworkClass) (ap : AccessPoint) :
    MatchGroups :=
  let byClass := (g.get? fqdn).getD .empty
  OrderedMap.insert g fqdn (byClass.insert c ((byClass.get? c).getD [] ++ [ap]))

end Hotspot
