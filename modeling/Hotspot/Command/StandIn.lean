/-
  Hotspot/Command/StandIn.lean
  ============================
  **A platform for the command line.**

  The command line has no radio, no secure store and no SIM card.  What they would say is
  given with the command: the metadata that access points answer with, the carriers of SIM
  cards, the packages that lost their authorization and the domain that is connected.  A
  request for metadata is always taken; its answer waits as a report until the command
  looks for it.
-/
import Hotspot.Manager.Event
import Hotspot.Text.Blank

namespace Hotspot.Command

/-- The metadata that an access point answers with. -/
structure CannedAnswer where
  bssid : MacAddress
  elements : List Anqp.Element
deriving DecidableEq

instance : JsonForm CannedAnswer where
  toJson a := .obj [("bssid", toJson a.bssid), ("elements", toJson a.elements)]
  ofJson? j := do
    let ms ← j.fields? ["bssid", "elements"]
    some {
      bssid := ← ms.required "bssid" MacAddress
      elements := ← ms.withDefault "elements" [] }

/-- What the platform would say, as far as it depends on the command. -/
structure Circumstances where
  answers : List CannedAnswer
  revoked : List String
  connected : Option String
deriving DecidableEq

def Circumstances.quiet : Circumstances := { answers := [], revoked := [], connected := none }

/-- The metadata of an access point; of two answers with one address the later counts. -/
def Circumstances.elements? (c : Circumstances) (bssid : MacAddress) : Option Anqp.Elements :=
  (OrderedMap.ofList (c.answers.map fun a => (a.bssid, Anqp.Elements.ofList a.elements))).get? bssid

/-- Whether calls end the connection. -/
def endConnection (calls : List Call) : Bool := calls.contains .disconnect

/-- The platform of a command that starts at a point of the history.  It refuses trust in a
    certificate authority without a name, and the state cannot be stored where the file
    cannot be written. -/
def standIn (now : Millis) (carriers : OrderedMap String Int32) (canStore : Bool)
    (c : Circumstances) (start : History) : Platform where
  now
  acceptsFetch _ _ _ _ := true
  install _ _ := none
  uninstall _ _ := none
  verify _ ca := if Text.isBlank ca then some (.rejected "empty CA reference") else none
  persist _ _ := if canStore then none else some (.unavailable "the file cannot be written")
  resolve _ imsi := carriers.get? imsi
  isAuthorized _ app := !c.revoked.contains app.package
  connectedDomain h := if endConnection (callsSince start h) then none else c.connected

/-- The report of an access point that was asked: its metadata, or a failure when there is
    none. -/
def Circumstances.report (c : Circumstances) (bssid : MacAddress) : Event :=
  match c.elements? bssid with
  | some es => .fetchResult bssid es
  | none => .fetchFailure bssid

def Circumstances.reports (c : Circumstances) (calls : List Call) : List Event :=
  calls.filterMap fun
    | .issueFetch bssid _ _ true => some (c.report bssid)
    | _ => none

end Hotspot.Command
