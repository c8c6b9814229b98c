/-
  Hotspot/Telemetry.lean
  ======================
  **Counters and gauges, and their text for a collector.**

  The text is the line format of Prometheus: for each metric a line that says its type and
  a line with its value.
-/
import Hotspot.Registry

namespace Hotspot

/-- What is counted. -/
inductive Counter where
  | installAttempted
  | installSucceeded
  | uninstallAttempted
  | uninstallSucceeded
  | requestIssued
  | responseDropped
deriving DecidableEq, Repr

namespace Counter

def all : List Counter :=
  [.installAttempted, .installSucceeded, .uninstallAttempted, .uninstallSucceeded,
   .requestIssued, .responseDropped]

def name : Counter → String
  | .installAttempted => "profile_install_attempted"
  | .installSucceeded => "profile_install_succeeded"
  | .uninstallAttempted => "profile_uninstall_attempted"
  | .uninstallSucceeded => "profile_uninstall_succeeded"
  | .requestIssued => "anqp_request_issued"
  | .responseDropped => "anqp_response_dropped"

def ofName? (name : String) : Option Counter := all.find? fun c => c.name == name

end Counter

structure Telemetry where
  count : Counter → UInt64
  installed : UInt64
  connected : UInt64

namespace Telemetry

def zero : Telemetry := { count := fun _ => 0, installed := 0, connected := 0 }

def increment (t : Telemetry) (c : Counter) : Telemetry :=
  { t with count := fun c' => if c' = c then t.count c' + 1 else t.count c' }

def setGauges (t : Telemetry) (installed connected : UInt64) : Telemetry :=
  { t with installed, connected }

def counterLines (t : Telemetry) (c : Counter) : List String :=
  let name := "passpoint_" ++ c.name ++ "_total"
  ["# TYPE " ++ name ++ " counter", name ++ " " ++ toString (t.count c).toNat]

def gaugeLines (name help : String) (value : UInt64) : List String :=
  ["# HELP " ++ name ++ " " ++ help, "# TYPE " ++ name ++ " gauge",
   name ++ " " ++ toString value.toNat]

def lines (t : Telemetry) : List String :=
  Counter.all.flatMap t.counterLines ++
    gaugeLines "passpoint_installed_profiles" "Installed Passpoint profiles" t.installed ++
    gaugeLines "passpoint_connected_profiles" "Profiles that have ever connected" t.connected

def toText (t : Telemetry) : String := String.join (t.lines.map (· ++ "\n"))

end Telemetry

/-! ### A picture of the registry -/

/-- What is told of a profile. -/
structure ProfileSummary where
  credentialType : CredentialType
  source : ProfileSource
  owner : String
  hasEverConnected : Bool
  autoJoin : Bool
deriving DecidableEq, Repr

/-- How many profiles there are, how many of them ever connected, and each by its home
    domain. -/
structure MetricsSnapshot where
  installed : Nat
  connected : Nat
  profiles : OrderedMap String ProfileSummary
deriving DecidableEq

def Profile.summary (p : Profile) : ProfileSummary :=
  { credentialType := p.credentialType, source := p.source, owner := p.owner.package,
    hasEverConnected := p.hasEverConnected, autoJoin := p.autoJoin }

def Registry.metrics (r : Registry) : MetricsSnapshot :=
  let profiles := r.profiles.mapValues fun _ p => p.summary
  { installed := profiles.size
    connected := profiles.values.countP (·.hasEverConnected)
    profiles }

def ProfileSummary.toJson (s : ProfileSummary) : Json := .obj [
  ("credential_type", Hotspot.toJson s.credentialType),
  ("source", Hotspot.toJson s.source),
  ("owner", Hotspot.toJson s.owner),
  ("has_ever_connected", Hotspot.toJson s.hasEverConnected),
  ("auto_join", Hotspot.toJson s.autoJoin)]

def MetricsSnapshot.toJson (s : MetricsSnapshot) : Json := .obj [
  ("installed_count", .int s.installed),
  ("connected_count", .int s.connected),
  ("profiles", .obj (s.profiles.entries.map fun e => (e.1, e.2.toJson)))]

end Hotspot
