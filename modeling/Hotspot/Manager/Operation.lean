/-
  Hotspot/Manager/Operation.lean
  ==============================
  **Everything a manager can be asked to do.**

  `perform` is the manager as one machine: an operation and an answer to its questions take
  a state to a reply and the next state.  Runs are sequences of such steps.
-/
import Hotspot.Manager.Event

namespace Hotspot

inductive Operation where
  | add (config : Option ProfileConfig) (caller : AppIdentity) (isSuggestion : Bool)
  | importLegacy (entry : Legacy.Entry)
  | remove (uid : UInt32) (privileged : Bool) (fqdn : String)
  | list (uid : UInt32) (privileged : Bool)
  | matchOne (ap : AccessPoint)
  | matchAll (aps : List AccessPoint)
  | cachedMetadata (ap : AccessPoint)
  | sweep
  | fetchResult (bssid : MacAddress) (elements : Anqp.Elements)
  | fetchFailure (bssid : MacAddress)
  | authorizationChanged (package : String)
  | networkConnected (fqdn : String)
  | metrics
  | publishMetrics
  | enableAutoJoin (fqdn : String) (enabled : Bool)
  | descriptors (fqdns : List String)
  | restore (state : PersistedState)
  | persistedState
  | isWatching (package : String)
  | handle (event : Event)
deriving DecidableEq

inductive Reply where
  | done
  | failed (error : ProfileError)
  | flag (b : Bool)
  | count (n : Nat)
  | configs (cs : List ProfileConfig)
  | found (ms : List ProfileMatch)
  | groups (g : MatchGroups)
  | elements (es : Anqp.Elements)
  | metrics (s : MetricsSnapshot)
  | descriptors (ds : List NetworkDescriptor)
  | state (s : PersistedState)
deriving DecidableEq

def Reply.ofResult : Except ProfileError Unit → Reply
  | .ok () => .done
  | .error e => .failed e

namespace Manager

def perform (m : Manager) (p : Platform) : Operation → Reply × Manager
  | .add config caller isSuggestion => (m.add p config caller isSuggestion).map .ofResult id
  | .importLegacy entry => (m.importLegacy p entry).map .ofResult id
  | .remove uid privileged fqdn => (m.remove p uid privileged fqdn).map .ofResult id
  | .list uid privileged => (.configs (m.registry.visibleTo uid privileged), m)
  | .matchOne ap => (m.matchOne p ap).map .found id
  | .matchAll aps => (m.matchAll p aps).map .groups id
  | .cachedMetadata ap => (.elements (m.cachedMetadata ap), m)
  | .sweep => (m.sweep p).map .count id
  | .fetchResult bssid elements => (m.fetchResult p bssid elements).map .flag id
  | .fetchFailure bssid => (m.fetchFailure bssid).map .flag id
  | .authorizationChanged package => (m.authorizationChanged p package).map .count id
  | .networkConnected fqdn => (m.networkConnected p fqdn).map .flag id
  | .metrics => (.metrics m.registry.metrics, m)
  | .publishMetrics => m.publishMetrics.map .metrics id
  | .enableAutoJoin fqdn enabled => (m.enableAutoJoin p fqdn enabled).map .flag id
  | .descriptors fqdns => (.descriptors (m.registry.descriptorsFor fqdns), m)
  | .restore state => (.done, m.restore state)
  | .persistedState => (.state m.registry.toState, m)
  | .isWatching package => (.flag (m.isWatching package), m)
  | .handle event => (.done, m.handle p event)

/-- A step of a run: what is done, and how the platform answers meanwhile. -/
abbrev Step := Platform × Operation

def run (m : Manager) (steps : List Step) : Manager :=
  steps.foldl (fun m s => (m.perform s.1 s.2).2) m

end Manager

end Hotspot
