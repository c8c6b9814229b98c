/-
  Hotspot/Manager/Resolution.lean
  ===============================
  **From scanned access points to profiles.**

  An access point whose metadata is remembered is matched at once.  Otherwise the answer is
  empty, and the metadata is asked for unless that was done already; nothing waits.  Home
  matches are an occasion to ask anew for the profile's carrier.
-/
import Hotspot.Manager.Profiles

namespace Hotspot.Manager

/-- Ask an access point for metadata to remember under a key, unless it must be left alone;
    true when the radio took the request. -/
def requestFetch (m : Manager) (p : Platform) (bssid : MacAddress) (key : IdentityKey)
    (isFirstAttempt homeRealmBiased : Bool) : Bool × Manager :=
  if m.requests.mayRequest p.now bssid then
    let accepted := p.acceptsFetch m.history bssid isFirstAttempt homeRealmBiased
    let m := m.record (.issueFetch bssid isFirstAttempt homeRealmBiased accepted)
    if accepted then
      let m := { m with requests := m.requests.issue m.settings.requests p.now bssid key }
      (true, m.increment .requestIssued)
    else (false, m)
  else (false, m)

def matchOne (m : Manager) (p : Platform) (ap : AccessPoint) : List ProfileMatch × Manager :=
  match ap.queryTarget? with
  | none => ([], m)
  | some target =>
    match m.cache.get? target.key with
    | some snapshot =>
      (m.registry.applicable m.matchers p.now snapshot.elements ap.roamingConsortium, m)
    | none =>
      let biased := target.release.any (·.hasHomeRealmQuery)
      ([], (m.requestFetch p target.bssid target.key
        (m.requests.isFirstAttempt target.bssid) biased).2)

/-- Group an access point under the profiles that apply to it, and ask anew for the carriers
    of those it is home to. -/
def groupMatches (p : Platform) (ap : AccessPoint) (found : List ProfileMatch)
    (start : MatchGroups × Manager) : MatchGroups × Manager :=
  found.foldl (fun (groups, m) f =>
    let m := if f.networkClass = .home then m.refreshCarrier p f.profile.fqdn else m
    (groups.add f.profile.fqdn f.networkClass ap, m)) start

def matchAll (m : Manager) (p : Platform) (aps : List AccessPoint) : MatchGroups × Manager :=
  aps.foldl (fun (groups, m) ap =>
    let (found, m) := m.matchOne p ap
    groupMatches p ap found (groups, m)) (OrderedMap.empty, m)

def cachedMetadata (m : Manager) (ap : AccessPoint) : Anqp.Elements :=
  match ap.queryTarget?.bind fun target => m.cache.get? target.key with
  | some snapshot => snapshot.elements
  | none => .empty

/-- Forget hold-offs that ended long ago and evict what is stale; the result is the number
    of evicted snapshots. -/
def sweep (m : Manager) (p : Platform) : Nat × Manager :=
  let (_, requests) := m.requests.prune m.settings.requests p.now
  let (evicted, cache) := m.cache.sweep p.now m.settings.cache.staleness
  (evicted, { m with requests, cache })

/-- Take an answer, if this access point was asked; it is remembered under the key that the
    request was made for. -/
def fetchResult (m : Manager) (p : Platform) (bssid : MacAddress) (es : Anqp.Elements) :
    Bool × Manager :=
  match m.requests.complete bssid true with
  | (none, _) => (false, m.increment .responseDropped)
  | (some key, requests) => (true, { m with requests, cache := m.cache.store p.now key es })

/-- Take a failure, if this access point was asked. -/
def fetchFailure (m : Manager) (bssid : MacAddress) : Bool × Manager :=
  match m.requests.complete bssid false with
  | (none, _) => (false, m)
  | (some _, requests) => (true, { m with requests })

end Hotspot.Manager
