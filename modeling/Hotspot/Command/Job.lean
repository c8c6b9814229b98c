/-
  Hotspot/Command/Job.lean
  ========================
  **What a command does to the manager, and what it says.**

  A job is a command whose inputs have been read.  It does one thing to the manager, except
  for matching, which goes over the scan twice: the first time asks for the metadata that
  is missing, and the second time, when the answers are in, gives the groups.
-/
import Hotspot.Command.Carrier
import Hotspot.Command.Files
import Hotspot.Command.Invocation
import Hotspot.Command.StandIn
import Hotspot.Json.Printer
import Hotspot.Manager.Operation

namespace Hotspot.Command

inductive Failure where
  /-- A file cannot be read. -/
  | unreadable (path : String)
  /-- The text of a file is not what it should be. -/
  | malformed (path : String)
  /-- There are settings, but they give no text. -/
  | noSettings (reason : String)
  | carrier (error : CarrierError)
  | profile (error : ProfileError)
  | noProfile (fqdn : String)
deriving DecidableEq, Repr

def Failure.message : Failure → String
  | .unreadable path => "reading " ++ path
  | .malformed path => "parsing " ++ path
  | .noSettings reason => reason
  | .carrier error => error.message
  | .profile error => error.message
  | .noProfile fqdn => "no profile for " ++ fqdn

/-- A command whose inputs have been read. -/
inductive Job where
  | add (config : ProfileConfig) (caller : AppIdentity) (isSuggestion : Bool)
  | importLegacy (entry : Legacy.Entry)
  | remove (fqdn : String) (uid : UInt32) (privileged : Bool)
  | list (uid : UInt32) (privileged : Bool)
  | matchScan (aps : List AccessPoint) (answers : List CannedAnswer)
  | revoke (package : String) (connected : Option String)
  | connected (fqdn : String)
  | autoJoin (fqdn : String) (enabled : Bool)
  | metrics
deriving DecidableEq

def readInput (α : Type) [JsonForm α] (d : Disk) (path : String) : Except Failure α :=
  match d.read? path with
  | none => .error (.unreadable path)
  | some text =>
    match readAs? α text with
    | none => .error (.malformed path)
    | some a => .ok a

def Request.load (d : Disk) : Request → Except Failure Job
  | .add profile uid package isSuggestion => do
    .ok (.add (← readInput ProfileConfig d profile) { uid, package } isSuggestion)
  | .importLegacy network => do .ok (.importLegacy (← readInput Legacy.Entry d network))
  | .remove fqdn uid privileged => .ok (.remove fqdn uid privileged)
  | .list uid privileged => .ok (.list uid privileged)
  | .matchScan scan none => do .ok (.matchScan (← readInput (List AccessPoint) d scan) [])
  | .matchScan scan (some anqp) => do
    let aps ← readInput (List AccessPoint) d scan
    .ok (.matchScan aps (← readInput (List CannedAnswer) d anqp))
  | .revoke package domain => .ok (.revoke package domain)
  | .connected fqdn => .ok (.connected fqdn)
  | .autoJoin fqdn disable => .ok (.autoJoin fqdn (!disable))
  | .metrics => .ok .metrics

namespace Job

/-- What the platform would say during a job. -/
def circumstances : Job → Circumstances
  | .matchScan _ answers => { Circumstances.quiet with answers }
  | .revoke package domain => { Circumstances.quiet with revoked := [package], connected := domain }
  | _ => .quiet

/-! ### What a job says -/

/-- An access point as it is shown. -/
def label (ap : AccessPoint) : String := ap.ssid ++ " (" ++ ap.bssid.getD "?" ++ ")"

def groupsJson (g : MatchGroups) : Json :=
  .obj (g.entries.map fun byClass =>
    (byClass.1, .obj (byClass.2.entries.map fun aps =>
      (aps.1.name, toJson (aps.2.map label)))))

def installedText (verb fqdn : String) (nextIndex : UInt64) : String :=
  verb ++ " " ++ fqdn ++ " (next index " ++ toString nextIndex.toNat ++ ")"

def revokedText (count : Nat) (package : String) (disconnected : Bool) : String :=
  "Removed " ++ toString count ++ " profiles owned by " ++ package ++
    (if disconnected then "; disconnected" else "")

/-! ### Doing it -/

/-- The groups of a scan, once the metadata that is missing has been asked for and the
    answers are in. -/
def matchWith (m : Manager) (p : Platform) (aps : List AccessPoint) (c : Circumstances) :
    MatchGroups × Manager :=
  let asked := (m.matchAll p aps).2
  (asked.handleAll p (c.reports (callsSince m.history asked.history))).matchAll p aps

def unlessFailed (r : Except ProfileError Unit × Manager) (say : Manager → String) :
    Except Failure String × Manager :=
  match r with
  | (.ok (), m) => (.ok (say m), m)
  | (.error e, m) => (.error (.profile e), m)

/-- Do a job: what it says, and the manager afterwards. -/
def perform (m : Manager) (p : Platform) (job : Job) : Except Failure String × Manager :=
  match job with
  | .add config caller isSuggestion =>
    unlessFailed (m.add p (some config) caller isSuggestion) fun m =>
      installedText "Installed" config.fqdn m.registry.nextIndex
  | .importLegacy entry =>
    unlessFailed (m.importLegacy p entry) fun m =>
      installedText "Imported" entry.fqdn m.registry.nextIndex
  | .remove fqdn uid privileged =>
    unlessFailed (m.remove p uid privileged fqdn) fun _ => "Removed " ++ fqdn
  | .list uid privileged => (.ok (toJson (m.registry.visibleTo uid privileged)).indented, m)
  | .matchScan aps _ =>
    let (groups, m) := matchWith m p aps job.circumstances
    (.ok (groupsJson groups).indented, m)
  | .revoke package _ =>
    let (count, m') := m.authorizationChanged p package
    (.ok (revokedText count package (endConnection (callsSince m.history m'.history))), m')
  | .connected fqdn =>
    match m.networkConnected p fqdn with
    | (true, m) => (.ok (fqdn ++ " marked as connected"), m)
    | (false, m) => (.ok (fqdn ++ " unchanged"), m)
  | .autoJoin fqdn enabled =>
    match m.enableAutoJoin p fqdn enabled with
    | (true, m) =>
      (.ok ("Auto-join " ++ (if enabled then "enabled" else "disabled") ++ " for " ++ fqdn), m)
    | (false, m) => (.error (.noProfile fqdn), m)
  | .metrics =>
    let (snapshot, m) := m.publishMetrics
    (.ok (snapshot.toJson.indented ++ "\n" ++ (Telemetry.ofHistory m.history).toText), m)

end Job

end Hotspot.Command
