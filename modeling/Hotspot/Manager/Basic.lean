/-
  Hotspot/Manager/Basic.lean
  ==========================
  **The state of the manager, and its single steps.**

  The manager holds the registry, the watched applications, the metadata cache and the
  request tracker, and remembers every call it made.  Its operations are built from the
  steps here.  Each of them puts at most one question to the platform, so what an operation
  does, and in which order, can be read off the steps it takes.
-/
import Hotspot.Matching.Precedence
import Hotspot.MetadataCache
import Hotspot.Platform
import Hotspot.RequestTracker

namespace Hotspot

/-- The watched applications: the user number of each by its package. -/
abbrev WatchList := OrderedMap String UInt32

structure Manager where
  settings : Settings
  matchers : Matchers
  registry : Registry
  watches : WatchList
  cache : MetadataCache
  requests : RequestTracker
  history : History

namespace Manager

def new (settings : Settings) (matchers : Matchers) : Manager :=
  { settings, matchers, registry := .empty, watches := .empty, cache := .empty,
    requests := .empty, history := [] }

def record (m : Manager) (c : Call) : Manager := { m with history := c :: m.history }

def increment (m : Manager) (c : Counter) : Manager := m.record (.increment c)

/-! ### Questions -/

def install (m : Manager) (p : Platform) (profile : Profile) : Option PlatformError × Manager :=
  let failure := p.install m.history profile
  (failure, m.record (.install profile failure))

/-- Take a profile's credential out of the secure store.  Nothing hangs on a failure. -/
def uninstall (m : Manager) (p : Platform) (profile : Profile) : Manager :=
  m.record (.uninstall profile (p.uninstall m.history profile))

def verify (m : Manager) (p : Platform) (caCertificate : String) :
    Option PlatformError × Manager :=
  let failure := p.verify m.history caCertificate
  (failure, m.record (.verify caCertificate failure))

def persist (m : Manager) (p : Platform) : Manager :=
  m.record (.persist true m.registry.toState (p.persist m.history m.registry.toState))

def resolve (m : Manager) (p : Platform) (imsi : String) : Option Int32 × Manager :=
  let carrierId := p.resolve m.history imsi
  (carrierId, m.record (.resolve imsi carrierId))

def isAuthorized (m : Manager) (p : Platform) (app : AppIdentity) : Bool × Manager :=
  let answer := p.isAuthorized m.history app
  (answer, m.record (.isAuthorized app answer))

def connectedDomain (m : Manager) (p : Platform) : Option String × Manager :=
  let answer := p.connectedDomain m.history
  (answer, m.record (.connectedDomain answer))

/-! ### Watching applications -/

/-- Watch an application, unless its package is watched already. -/
def startWatching (m : Manager) (app : AppIdentity) : Manager :=
  if m.watches.contains app.package then m
  else { m with watches := m.watches.insert app.package app.uid }.record (.startWatching app)

/-- Stop watching a package, under the identity its watch was started with. -/
def stopWatching (m : Manager) (package : String) : Manager :=
  match m.watches.get? package with
  | none => m
  | some uid => { m with watches := m.watches.erase package }.record (.stopWatching { uid, package })

/-- Stop watching the owner of a profile that is gone, when it was a profile installed for
    the user and the owner has no other. -/
def releaseOwner (m : Manager) (gone : Profile) : Manager :=
  if gone.isSaved && !m.registry.hasSavedBy gone.owner.package then
    m.stopWatching gone.owner.package
  else m

def isWatching (m : Manager) (package : String) : Bool := m.watches.contains package

end Manager

end Hotspot
