/-
  Hotspot/Main.lean
  =================
  **The program: files, streams and the clock around `Hotspot.Command.run`.**

  The paths that a command line names are looked at before the run, and what the run saves
  is written after it, beside the state first and then in its place.  A state that cannot
  be written is passed over in silence.
-/
import Hotspot.Command.Session
import Std.Time.DateTime.Timestamp

namespace Hotspot.Command

/-- What an error of the system says of a path.  A directory can be opened but not read;
    nothing is there when a name of the path is missing, is no directory or is too long. -/
def placeOfError : IO.Error → Place
  | .noFileOrDirectory .. => .nothing
  | .invalidArgument .. => .nothing
  | .inappropriateType _ code details =>
    if code = 21 then .unreadable (details ++ " (os error 21)") else .nothing
  | e => .unreadable (toString e)

def lookAt (path : String) : IO Place := do
  try return .file (← IO.FS.readFile path)
  catch e => return placeOfError e

def Request.inputs : Request → List String
  | .add profile .. => [profile]
  | .importLegacy network => [network]
  | .matchScan scan anqp => scan :: anqp.toList
  | _ => []

def diskOf (places : List (String × Place)) : Disk where
  look path := (places.lookup path).getD .nothing
  canReplace _ := true

def Invocation.lookAround (i : Invocation) : IO Disk := do
  let config ← lookAt i.config
  let known := diskOf [(i.config, config)]
  match readConfiguration known i.config with
  | .error _ => return known
  | .ok c =>
    let rest ← (i.statePath c.settings :: i.request.inputs).mapM fun path => do
      return (path, ← lookAt path)
    return diskOf ((i.config, config) :: rest)

def save (path text : String) : IO Unit := do
  if let some temporary := Path.temporary? path then
    try
      IO.FS.writeFile temporary text
      IO.FS.rename temporary path
    catch _ => return ()

end Hotspot.Command

open Hotspot.Command

def main (words : List String) : IO UInt32 := do
  let stateVariable ← IO.getEnv "PASSPOINT_STATE"
  let now := (← Std.Time.Timestamp.now).toMillisecondsSinceUnixEpoch.val.toNat
  let disk ← match Invocation.read words stateVariable with
    | .ok i => i.lookAround
    | .error _ => pure (diskOf [])
  let report := run disk (.ofNat now) words stateVariable
  if report.settingsPassedOver then IO.eprintln "Warning: Failed to parse config file"
  if let some (path, text) := report.saved then save path text
  IO.print report.outcome.output
  if let .stopped .usage := report.outcome then IO.eprintln usageText
  if let some message := report.outcome.error? then IO.eprintln ("Error: " ++ message)
  return report.outcome.exitCode
