/-
  Hotspot/Command/Session.lean
  ============================
  **One run of the program.**

  A run reads its command line, its settings and its inputs, takes over the stored state,
  does its job and stores the state again whenever the job changes it.  Settings that are
  no TOML, or that name a field with a wrong value, are reported and replaced by the
  defaults; a stored state that cannot be read ends the run.
-/
import Hotspot.Command.Job
import Hotspot.Toml.Reader

namespace Hotspot.Command

/-! ### Settings -/

/-- Settings, and whether the file with them had to be passed over. -/
structure Configuration where
  settings : Settings
  isPassedOver : Bool
deriving DecidableEq

def readConfiguration (d : Disk) (path : String) : Except Failure Configuration :=
  match d.look path with
  | .nothing => .ok { settings := .default, isPassedOver := false }
  | .unreadable reason => .error (.noSettings reason)
  | .file text =>
    match Toml.parse? text >>= Settings.ofToml? with
    | some settings => .ok { settings, isPassedOver := false }
    | none => .ok { settings := .default, isPassedOver := true }

def Invocation.statePath (i : Invocation) (s : Settings) : String := i.state.getD s.storePath

/-! ### State -/

/-- The state at a path; nothing was installed yet when there is nothing. -/
def readState (d : Disk) (path : String) : Except Failure PersistedState :=
  match d.look path with
  | .nothing => .ok .empty
  | .unreadable _ => .error (.unreadable path)
  | .file text =>
    match readAs? PersistedState text with
    | some state => .ok state
    | none => .error (.unreadable path)

def stateText (s : PersistedState) : String := (toJson s).indented

def storedTexts (calls : List Call) : List String :=
  calls.filterMap fun
    | .persist _ state _ => some (stateText state)
    | _ => none

/-! ### A run -/

/-- How a run ends. -/
inductive Outcome where
  /-- The job is done; this is what it says. -/
  | done (text : String)
  | failed (failure : Failure)
  /-- The command line is not run. -/
  | stopped (stop : Stop)
deriving DecidableEq, Repr

/-- A run as seen from outside. -/
structure Report where
  outcome : Outcome
  /-- Whether the file with the settings had to be passed over. -/
  settingsPassedOver : Bool
  /-- The path of the stored state, with the text that is to take its place if there is
      one. -/
  saved : Option (String × String)
deriving DecidableEq

def Report.ofOutcome (outcome : Outcome) (settingsPassedOver : Bool) : Report :=
  { outcome, settingsPassedOver, saved := none }

def Outcome.exitCode : Outcome → UInt32
  | .done _ => 0
  | .failed _ => 1
  | .stopped .usage => 2
  | .stopped .help => 0
  | .stopped .version => 0

/-- Do the job of a request on the stored state at a path. -/
def Request.run (d : Disk) (now : Millis) (settings : Settings) (statePath : String)
    (carriers : List String) (request : Request) :
    Except Failure (Except Failure String × List Call) := do
  let job ← request.load d
  let state ← readState d statePath
  match readCarriers carriers with
  | .error e => .error (.carrier e)
  | .ok carriers =>
    let start := (Manager.new settings .default).restore state
    let platform := standIn now carriers (d.canReplace statePath) job.circumstances start.history
    let (said, m) := job.perform start platform
    .ok (said, callsSince start.history m.history)

theorem Request.run_eq {d : Disk} {now : Millis} {settings : Settings} {statePath : String}
    {carriers : List String} {request : Request} {job : Job} {state : PersistedState}
    {byImsi : OrderedMap String Int32} (hload : request.load d = .ok job)
    (hstate : readState d statePath = .ok state) (hcarriers : readCarriers carriers = .ok byImsi) :
    request.run d now settings statePath carriers =
      let start := (Manager.new settings .default).restore state
      let result := job.perform start
        (standIn now byImsi (d.canReplace statePath) job.circumstances start.history)
      .ok (result.1, callsSince start.history result.2.history) := by
  unfold Request.run
  rw [hload, hstate, hcarriers]
  rfl

def Invocation.run (d : Disk) (now : Millis) (i : Invocation) : Report :=
  match readConfiguration d i.config with
  | .error failure => .ofOutcome (.failed failure) false
  | .ok c =>
    let statePath := i.statePath c.settings
    match i.request.run d now c.settings statePath i.carriers with
    | .error failure => .ofOutcome (.failed failure) c.isPassedOver
    | .ok (said, calls) =>
      { outcome := match said with
          | .ok text => .done text
          | .error failure => .failed failure
        settingsPassedOver := c.isPassedOver
        saved := (storedTexts calls).getLast?.map fun text => (statePath, text) }

/-- Run the words of a command line; a path for the state may come from the environment. -/
def run (d : Disk) (now : Millis) (words : List String) (stateVariable : Option String) :
    Report :=
  match Invocation.read words stateVariable with
  | .error stop => .ofOutcome (.stopped stop) false
  | .ok invocation => invocation.run d now

def Report.apply (r : Report) (fs : Files) : Files :=
  match r.saved with
  | none => fs
  | some (path, text) => fs.save path text

/-! ### What is printed -/

def usageText : String := "\n".intercalate [
  "Passpoint profile manager CLI",
  "",
  "Usage: passpoint-cli [OPTIONS] <COMMAND>",
  "",
  "Commands:",
  "  add            Install or replace a profile",
  "  import-legacy  Import a legacy enterprise network entry as a profile",
  "  remove         Remove a profile",
  "  list           List Saved profiles",
  "  match          Match scanned access points against the installed profiles",
  "  revoke         Revoke an application's Wi-Fi authorization",
  "  connected      Record a connection to a profile's network",
  "  auto-join      Enable or disable auto-join for a profile",
  "  metrics        Show profile metrics",
  "",
  "Options:",
  "  -c, --config <CONFIG>        Configuration file path [default: passpoint.toml]",
  "      --state <STATE>          State file (overrides the configuration file)",
  "      --carrier <CARRIERS>     Active SIM as IMSI=CARRIER_ID (repeatable)",
  "      --log-level <LOG_LEVEL>  Log level [default: info]"]

def versionText : String := "passpoint-cli 0.1.0"

def Outcome.output : Outcome → String
  | .done text => text ++ "\n"
  | .failed _ => ""
  | .stopped .usage => ""
  | .stopped .help => usageText ++ "\n"
  | .stopped .version => versionText ++ "\n"

def Outcome.error? : Outcome → Option String
  | .failed failure => some failure.message
  | _ => none

end Hotspot.Command
