/-
  Hotspot/Command/Invocation.lean
  ===============================
  **The commands, and what a command line asks for.**
-/
import Hotspot.Command.Line

namespace Hotspot.Command

/-- A command with its options. -/
inductive Request where
  | add (profile : String) (uid : UInt32) (package : String) (isSuggestion : Bool)
  | importLegacy (network : String)
  | remove (fqdn : String) (uid : UInt32) (privileged : Bool)
  | list (uid : UInt32) (privileged : Bool)
  | matchScan (scan : String) (anqp : Option String)
  | revoke (package : String) (connected : Option String)
  | connected (fqdn : String)
  | autoJoin (fqdn : String) (disable : Bool)
  | metrics
deriving DecidableEq, Repr

/-- A command line that can be run. -/
structure Invocation where
  /-- The path of the settings. -/
  config : String
  /-- The path of the stored state, in place of the one in the settings. -/
  state : Option String
  /-- The SIM cards in use. -/
  carriers : List String
  request : Request
deriving DecidableEq, Repr

def programOptions : List Opt :=
  [{ long := "config", short := some 'c', shape := .text, isRepeatable := false },
   once "state" .path,
   { long := "carrier", short := none, shape := .text, isRepeatable := true },
   once "log-level" .text]

def defaultConfig : String := "passpoint.toml"

/-! ### Commands by name -/

/-- A command: its name, its options, and the request that they make. -/
structure Spec where
  name : String
  options : List Opt
  request : Given → Except Stop Request

def specs : List Spec :=
  [{ name := "add"
     options := [once "profile" .path, once "uid" .uid, once "package" .text,
       once "suggestion" .switch]
     request := fun g => do
       .ok (.add (← g.required "profile") (← g.requiredUid "uid") (← g.required "package")
         (g.isOn "suggestion")) },
   { name := "import-legacy"
     options := [once "network" .path]
     request := fun g => do .ok (.importLegacy (← g.required "network")) },
   { name := "remove"
     options := [once "fqdn" .text, once "uid" .uid, once "privileged" .switch]
     request := fun g => do
       .ok (.remove (← g.required "fqdn") (← g.requiredUid "uid") (g.isOn "privileged")) },
   { name := "list"
     options := [once "uid" .uid, once "privileged" .switch]
     request := fun g => do .ok (.list (← g.requiredUid "uid") (g.isOn "privileged")) },
   { name := "match"
     options := [once "scan" .path, once "anqp" .path]
     request := fun g => do .ok (.matchScan (← g.required "scan") (g.value? "anqp")) },
   { name := "revoke"
     options := [once "package" .text, once "connected" .text]
     request := fun g => do .ok (.revoke (← g.required "package") (g.value? "connected")) },
   { name := "connected"
     options := [once "fqdn" .text]
     request := fun g => do .ok (.connected (← g.required "fqdn")) },
   { name := "auto-join"
     options := [once "fqdn" .text, once "disable" .switch]
     request := fun g => do .ok (.autoJoin (← g.required "fqdn") (g.isOn "disable")) },
   { name := "metrics", options := [], request := fun _ => .ok .metrics }]

/-- The request of a command's words.  A word that is no option is one too many. -/
def Spec.read (s : Spec) (words : List String) : Except Stop Request :=
  match readOptions s.options false [] words with
  | .error stop => .error stop
  | .ok (g, []) => s.request g
  | .ok (_, _ :: _) => .error .usage

/-- Help may be asked for as a command, of one other command at most. -/
def helpFor (words : List String) : Stop :=
  match words with
  | [] => .help
  | [name] => if name == "help" || specs.any fun s => s.name == name then .help else .usage
  | _ => .usage

/-- What a command line asks for.  The path of the state may also come from the
    environment; there too it must not be empty. -/
def Invocation.read (words : List String) (stateVariable : Option String) :
    Except Stop Invocation := do
  match ← readOptions programOptions true [] words with
  | (_, []) => .error .usage
  | (g, name :: rest) =>
    match specs.find? fun s => s.name == name with
    | none => .error (if name = "help" then helpFor rest else .usage)
    | some s =>
      let request ← s.read rest
      let state := g.value? "state" <|> stateVariable
      if state = some "" then .error .usage
      else
        .ok {
          config := (g.value? "config").getD defaultConfig
          state
          carriers := g.values "carrier"
          request }

end Hotspot.Command
