/-
  Hotspot/Manager/Profiles.lean
  =============================
  **Installing, importing and removing profiles.**

  A new profile passes its gates in a fixed order: its configuration is complete, its
  certificate authority is trusted, it is no suggestion over another application's profile,
  and its credential can be installed.  Only then is anything changed: the profile takes
  the place of the one for its domain, which is retired, and the change is stored.

  An application is watched while it owns a profile that was installed for the user.  When
  it loses the right to change Wi-Fi state, all of these profiles go, and with them a
  connection to one of their networks.
-/
import Hotspot.Manager.Basic

namespace Hotspot.Manager

/-! ### Carriers -/

/-- Ask anew for the carrier of a profile with a whole subscriber number, and say whether
    it changed the profile. -/
def updateCarrier (m : Manager) (p : Platform) (fqdn : String) : Bool × Manager :=
  match m.registry.get? fqdn with
  | none => (false, m)
  | some profile =>
    match profile.config.sim.bind (·.fullImsi?) with
    | none => (false, m)
    | some imsi =>
      match m.resolve p imsi with
      | (none, m) => (false, m)
      | (some carrierId, m) =>
        if profile.config.carrierId = some carrierId then (false, m)
        else (true, { m with registry := m.registry.modify fqdn (·.withCarrier carrierId) })

def refreshCarrier (m : Manager) (p : Platform) (fqdn : String) : Manager :=
  match m.updateCarrier p fqdn with
  | (true, m) => m.persist p
  | (false, m) => m

/-! ### Installing -/

/-- Retire the profile that another one has taken the place of.  Its network entry goes
    unless the new profile has the very same one. -/
def retireReplaced (m : Manager) (p : Platform) (profile : Profile) : Option Profile → Manager
  | none => m
  | some old =>
    let m := m.uninstall p old
    if old.descriptor = profile.descriptor then m
    else m.record (.removeDescriptor old.descriptor.key)

def releaseReplaced (m : Manager) : Option Profile → Manager
  | none => m
  | some old => m.releaseOwner old

/-- Enter a profile, retire the one it replaces, and store the change. -/
def commit (m : Manager) (p : Platform) (profile : Profile) : Manager :=
  let replaced := m.registry.get? profile.fqdn
  let m := { m with registry := m.registry.insert profile }
  let m := m.retireReplaced p profile replaced
  let m := m.persist p
  let m := m.releaseReplaced replaced
  m.refreshCarrier p profile.fqdn

/-- Ask for trust in the certificate authority that a configuration names, unless the
    configuration mends an older one. -/
def verifyAuthority (m : Manager) (p : Platform) (config : ProfileConfig) :
    Option PlatformError × Manager :=
  match config.caCertificate with
  | some ca => if config.updateIdentifier = 0 then m.verify p ca else (none, m)
  | none => (none, m)

/-- Whether a suggestion must not take the place of the profile for its domain, which
    another package owns. -/
def forbidsSuggestion (m : Manager) (fqdn package : String) (isSuggestion : Bool) : Bool :=
  match m.registry.get? fqdn with
  | some old => isSuggestion && old.owner.package != package
  | none => false

/-- Install the credential of a new profile under the next number, and enter the profile.
    The number is used up even when the credential cannot be installed. -/
def installNew (m : Manager) (p : Platform) (config : ProfileConfig) (caller : AppIdentity)
    (source : ProfileSource) (type : CredentialType) : Except ProfileError Unit × Manager :=
  let profile := Profile.new config m.registry.nextIndex caller source type
  let m := { m with registry := m.registry.takeIndex }
  match m.install p profile with
  | (some failure, m) => (.error (.notInstalled failure), m)
  | (none, m) =>
    let m := m.commit p profile
    let m := if source = .saved then m.startWatching caller else m
    (.ok (), m.increment .installSucceeded)

/-- Install a profile, in place of one with the same home domain. -/
def add (m : Manager) (p : Platform) (config? : Option ProfileConfig) (caller : AppIdentity)
    (isSuggestion : Bool) : Except ProfileError Unit × Manager :=
  let m := m.increment .installAttempted
  match config? with
  | none => (.error (.invalid .missingConfiguration), m)
  | some config =>
    match config.validate with
    | .error defect => (.error (.invalid defect), m)
    | .ok type =>
      match m.verifyAuthority p config with
      | (some failure, m) => (.error (.untrusted failure), m)
      | (none, m) =>
        if m.forbidsSuggestion config.fqdn caller.package isSuggestion then
          (.error (.notOwner config.fqdn), m)
        else m.installNew p config caller (.ofSuggestion isSuggestion) type

/-- Import a legacy entry as a profile for the user.  Its credential is in the secure store
    already.  An entry that does not name its package is not watched. -/
def importLegacy (m : Manager) (p : Platform) (entry : Legacy.Entry) :
    Except ProfileError Unit × Manager :=
  let m := m.increment .installAttempted
  match entry.toProfileConfig with
  | .error reason => (.error (.unusable reason), m)
  | .ok (config, type) =>
    let profile := Profile.new config m.registry.nextIndex entry.creator .saved type
    let m := { m with registry := m.registry.takeIndex }
    let m := m.commit p profile
    let m := if entry.creatorPackage = "" then m else m.startWatching entry.creator
    (.ok (), m.increment .installSucceeded)

/-! ### Removing -/

def retire (m : Manager) (p : Platform) (profile : Profile) : Manager :=
  (m.uninstall p profile).record (.removeDescriptor profile.descriptor.key)

/-- Remove the profile of a home domain.  Only its owner, by user number, or a privileged
    caller may. -/
def remove (m : Manager) (p : Platform) (uid : UInt32) (privileged : Bool) (fqdn : String) :
    Except ProfileError Unit × Manager :=
  let m := m.increment .uninstallAttempted
  match m.registry.get? fqdn with
  | none => (.error (.notFound fqdn), m)
  | some profile =>
    if !privileged && profile.owner.uid != uid then (.error (.notOwner fqdn), m)
    else
      let m := { m with registry := m.registry.erase fqdn }
      let m := m.retire p profile
      let m := m.persist p
      let m := m.releaseOwner profile
      (.ok (), m.increment .uninstallSucceeded)

def retireCounted (m : Manager) (p : Platform) (profile : Profile) : Manager :=
  ((m.increment .uninstallAttempted).retire p profile).increment .uninstallSucceeded

/-- Remove the profiles that a package owns and installed for the user; the result is what
    was removed. -/
def removeSavedBy (m : Manager) (p : Platform) (package : String) : List Profile × Manager :=
  let removed := m.registry.savedBy package
  let m := { m with registry := m.registry.eraseSavedBy package }
  let m := removed.foldl (fun m profile => m.retireCounted p profile) m
  (removed, if removed.isEmpty then m else m.persist p)

def disconnectFrom (m : Manager) (domain : Option String) (removed : List Profile) : Manager :=
  match domain with
  | none => m
  | some domain => if removed.any fun r => r.fqdn == domain then m.record .disconnect else m

/-- Look at the authorization of a package anew.  When a watched one has lost it, its
    profiles are removed; the result is their number. -/
def authorizationChanged (m : Manager) (p : Platform) (package : String) : Nat × Manager :=
  match m.watches.get? package with
  | none => (0, m)
  | some uid =>
    match m.isAuthorized p { uid, package } with
    | (true, m) => (0, m)
    | (false, m) =>
      let (connected, m) := m.connectedDomain p
      let (removed, m) := m.removeSavedBy p package
      let m := m.stopWatching package
      (removed.length, m.disconnectFrom connected removed)

/-! ### Flags of a profile's life -/

/-- Allow or forbid to join a profile's network without asking; false when there is no such
    profile. -/
def enableAutoJoin (m : Manager) (p : Platform) (fqdn : String) (enabled : Bool) :
    Bool × Manager :=
  match m.registry.get? fqdn with
  | none => (false, m)
  | some profile =>
    if profile.autoJoin = enabled then (true, m)
    else
      let registry := m.registry.modify fqdn fun q => { q with autoJoin := enabled }
      (true, { m with registry }.persist p)

/-- Note that a profile's network was connected; true when it is the first time. -/
def networkConnected (m : Manager) (p : Platform) (fqdn : String) : Bool × Manager :=
  match m.registry.get? fqdn with
  | none => (false, m)
  | some profile =>
    if profile.hasEverConnected then (false, m)
    else
      let registry := m.registry.modify fqdn fun q => { q with hasEverConnected := true }
      (true, { m with registry }.persist p)

/-! ### Stored state and telemetry -/

/-- Take over a stored state.  Watches follow the owners in it: packages that own nothing
    for the user any more are released first, then the owners in it are watched. -/
def restore (m : Manager) (s : PersistedState) : Manager :=
  let m := { m with registry := m.registry.restore s }
  let orphans := m.watches.keys.filter fun package => !m.registry.hasSavedBy package
  let m := orphans.foldl stopWatching m
  (m.registry.profiles.values.filter (·.isSaved)).foldl (fun m p => m.startWatching p.owner) m

def publishMetrics (m : Manager) : MetricsSnapshot × Manager :=
  let snapshot := m.registry.metrics
  (snapshot, m.record (.recordProfiles snapshot.installed snapshot.connected))

end Hotspot.Manager
