/-
  Hotspot/Settings.lean
  =====================
  **Settings of the manager.**

  Every section and every field has a default, so settings that say nothing are complete.
-/
import Hotspot.Json.Form
import Hotspot.Millis

namespace Hotspot

/-- How long metadata is kept. -/
structure CacheSettings where
  /-- The age from which a sweep evicts an entry. -/
  staleness : Millis
  sweepInterval : Millis
deriving DecidableEq, Repr

/-- How often an access point is asked. -/
structure RequestSettings where
  /-- The hold-off after the first request. -/
  baseHoldOff : Millis
  /-- How many times the hold-off doubles at most. -/
  maxRetries : UInt32
deriving DecidableEq, Repr

structure Settings where
  cache : CacheSettings
  requests : RequestSettings
  storePath : String
  logLevel : String
deriving DecidableEq, Repr

/-- An hour of staleness and a sweep every minute. -/
def CacheSettings.default : CacheSettings := { staleness := 3600000, sweepInterval := 60000 }

/-- Ten seconds of hold-off, doubled six times at most. -/
def RequestSettings.default : RequestSettings := { baseHoldOff := 10000, maxRetries := 6 }

def Settings.default : Settings :=
  { cache := .default, requests := .default, storePath := "./passpoint-state.json",
    logLevel := "info" }

/-! ### JSON forms -/

instance : JsonForm CacheSettings where
  toJson s := .obj [
    ("staleness_ms", toJson s.staleness),
    ("sweep_interval_ms", toJson s.sweepInterval)]
  ofJson? j := do
    let ms ← j.fields? ["staleness_ms", "sweep_interval_ms"]
    some {
      staleness := ← ms.withDefault "staleness_ms" CacheSettings.default.staleness
      sweepInterval := ← ms.withDefault "sweep_interval_ms" CacheSettings.default.sweepInterval }

instance : JsonForm RequestSettings where
  toJson s := .obj [
    ("base_holdoff_ms", toJson s.baseHoldOff),
    ("max_holdoff_retries", toJson s.maxRetries)]
  ofJson? j := do
    let ms ← j.fields? ["base_holdoff_ms", "max_holdoff_retries"]
    some {
      baseHoldOff := ← ms.withDefault "base_holdoff_ms" RequestSettings.default.baseHoldOff
      maxRetries := ← ms.withDefault "max_holdoff_retries" RequestSettings.default.maxRetries }

/-- A section with one text field, which may be left out with the section or alone. -/
def Json.Members.sectionText (ms : Json.Members) (group field default : String) :
    Option String :=
  match ms.find? group with
  | none => some default
  | some j => do (← j.fields? [field]).withDefault field default

instance : JsonForm Settings where
  toJson s := .obj [
    ("cache", toJson s.cache),
    ("requests", toJson s.requests),
    ("store", .obj [("path", toJson s.storePath)]),
    ("logging", .obj [("level", toJson s.logLevel)])]
  ofJson? j := do
    let ms ← j.fields? ["cache", "requests", "store", "logging"]
    some {
      cache := ← ms.withDefault "cache" CacheSettings.default
      requests := ← ms.withDefault "requests" RequestSettings.default
      storePath := ← ms.sectionText "store" "path" Settings.default.storePath
      logLevel := ← ms.sectionText "logging" "level" Settings.default.logLevel }

def Settings.sectionSize (group : String) : Nat :=
  if group = "cache" ∨ group = "requests" then 2 else 1

/-- Settings in TOML.  An array that stands for a section may go on after its last field there. -/
def Settings.ofToml? (j : Json) : Option Settings := do
  let ms ← j.members?
  ofJson? (.obj (ms.map fun (group, fields) => (group, match fields with
    | .arr values => .arr (values.take (sectionSize group))
    | fields => fields)))

end Hotspot
