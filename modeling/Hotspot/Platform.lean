/-
  Hotspot/Platform.lean
  =====================
  **What the manager asks of the system it runs on.**

  Credentials, certificate trust, stored configuration, SIM cards, authorization, the
  connection and the radio belong to the platform.  Every question put to it is a `Call`,
  kept together with the answer; the list of calls made so far is the manager's history,
  the latest call first.

  A `Platform` is any way to answer.  Each answer may depend on the whole history, so the
  platform may fail, refuse and change its mind at will; only the time stands still during
  an operation.
-/
import Hotspot.Error
import Hotspot.Millis
import Hotspot.Radio.AccessPoint
import Hotspot.Telemetry

namespace Hotspot

/-- A question to the platform, with its answer if it has one.  A failure of `none` is
    success. -/
inductive Call where
  /-- Ask an access point for metadata; the radio accepts the request or refuses it. -/
  | issueFetch (bssid : MacAddress) (isFirstAttempt homeRealmBiased accepted : Bool)
  | install (profile : Profile) (failure : Option PlatformError)
  | uninstall (profile : Profile) (failure : Option PlatformError)
  | verify (caCertificate : String) (failure : Option PlatformError)
  | removeDescriptor (key : String)
  | persist (immediate : Bool) (state : PersistedState) (failure : Option PlatformError)
  | resolve (imsi : String) (carrierId : Option Int32)
  | startWatching (app : AppIdentity)
  | stopWatching (app : AppIdentity)
  | isAuthorized (app : AppIdentity) (answer : Bool)
  | connectedDomain (answer : Option String)
  | disconnect
  | increment (counter : Counter)
  | recordProfiles (installed connected : Nat)
deriving DecidableEq

/-- The calls made so far, the latest first. -/
abbrev History := List Call

/-- The calls made since an earlier point of a history, the oldest first. -/
def callsSince (earlier later : History) : List Call :=
  (later.take (later.length - earlier.length)).reverse

/-- A way to answer calls, and the time. -/
structure Platform where
  now : Millis
  /-- Whether the radio takes a request for metadata. -/
  acceptsFetch : History → MacAddress → Bool → Bool → Bool
  /-- How putting a profile's credential into the secure store fails, if it does. -/
  install : History → Profile → Option PlatformError
  /-- How taking a profile's credential out of the secure store fails, if it does. -/
  uninstall : History → Profile → Option PlatformError
  /-- How trust in a certificate authority is refused, if it is. -/
  verify : History → String → Option PlatformError
  /-- How storing the registry fails, if it does. -/
  persist : History → PersistedState → Option PlatformError
  /-- The carrier of a whole subscriber number. -/
  resolve : History → String → Option Int32
  /-- Whether an application may change Wi-Fi state. -/
  isAuthorized : History → AppIdentity → Bool
  /-- The home domain of the network that is connected. -/
  connectedDomain : History → Option String

def Telemetry.observe (t : Telemetry) : Call → Telemetry
  | .increment counter => t.increment counter
  | .recordProfiles installed connected => t.setGauges (.ofNat installed) (.ofNat connected)
  | _ => t

def Telemetry.ofHistory : History → Telemetry
  | [] => .zero
  | call :: earlier => (ofHistory earlier).observe call

end Hotspot
