/-
  Hotspot/Proofs/Steps.lean
  =========================
  **What the steps of the manager leave alone.**

  Operations are built from steps that put one question each, and most steps change neither
  the registry nor the watches.  The equations here say so, one for each step and each part
  of the state, so that an operation is simplified to the few steps in it that matter.
-/
import Hotspot.Manager.Operation
import Hotspot.Proofs.Registry

namespace Hotspot

namespace Manager

variable (m : Manager) (p : Platform)

/-! ### Calls -/

@[simp] theorem record_registry (c : Call) : (m.record c).registry = m.registry := rfl
@[simp] theorem record_watches (c : Call) : (m.record c).watches = m.watches := rfl
@[simp] theorem record_history (c : Call) : (m.record c).history = c :: m.history := rfl

@[simp] theorem increment_registry (c : Counter) : (m.increment c).registry = m.registry := rfl

@[simp] theorem persist_registry : (m.persist p).registry = m.registry := rfl
@[simp] theorem persist_watches : (m.persist p).watches = m.watches := rfl

@[simp] theorem retire_registry (q : Profile) : (m.retire p q).registry = m.registry := rfl

@[simp] theorem retireCounted_registry (q : Profile) :
    (m.retireCounted p q).registry = m.registry := rfl
@[simp] theorem retireCounted_watches (q : Profile) :
    (m.retireCounted p q).watches = m.watches := rfl

@[simp] theorem retireReplaced_registry (q : Profile) (old : Option Profile) :
    (m.retireReplaced p q old).registry = m.registry := by
  unfold retireReplaced
  split
  · rfl
  · split <;> rfl

@[simp] theorem retireReplaced_watches (q : Profile) (old : Option Profile) :
    (m.retireReplaced p q old).watches = m.watches := by
  unfold retireReplaced
  split
  · rfl
  · split <;> rfl

@[simp] theorem disconnectFrom_registry (domain : Option String) (removed : List Profile) :
    (m.disconnectFrom domain removed).registry = m.registry := by
  unfold disconnectFrom
  split
  · rfl
  · split <;> rfl

@[simp] theorem disconnectFrom_watches (domain : Option String) (removed : List Profile) :
    (m.disconnectFrom domain removed).watches = m.watches := by
  unfold disconnectFrom
  split
  · rfl
  · split <;> rfl

/-- What each step of a loop leaves alone, the loop leaves alone. -/
theorem foldl_keeps {α β : Type} {step : Manager → α → Manager} (view : Manager → β)
    (hstep : ∀ m a, view (step m a) = view m) (l : List α) :
    view (l.foldl step m) = view m := by
  induction l generalizing m with
  | nil => rfl
  | cons a rest ih => rw [List.foldl_cons, ih, hstep]

@[simp] theorem foldl_retireCounted_registry (removed : List Profile) :
    (removed.foldl (fun m q => m.retireCounted p q) m).registry = m.registry :=
  foldl_keeps m registry (fun m q => retireCounted_registry m p q) removed

@[simp] theorem foldl_retireCounted_watches (removed : List Profile) :
    (removed.foldl (fun m q => m.retireCounted p q) m).watches = m.watches :=
  foldl_keeps m watches (fun m q => retireCounted_watches m p q) removed

@[simp] theorem removeSavedBy_registry (package : String) :
    (m.removeSavedBy p package).2.registry = m.registry.eraseSavedBy package := by
  unfold removeSavedBy
  dsimp only
  split
  · exact foldl_retireCounted_registry ..
  · exact foldl_retireCounted_registry ..

@[simp] theorem removeSavedBy_watches (package : String) :
    (m.removeSavedBy p package).2.watches = m.watches := by
  unfold removeSavedBy
  dsimp only
  split
  · exact foldl_retireCounted_watches ..
  · exact foldl_retireCounted_watches ..

/-! ### Watches -/

@[simp] theorem startWatching_registry (app : AppIdentity) :
    (m.startWatching app).registry = m.registry := by
  unfold startWatching
  split <;> rfl

@[simp] theorem stopWatching_registry (package : String) :
    (m.stopWatching package).registry = m.registry := by
  unfold stopWatching
  split <;> rfl

@[simp] theorem releaseOwner_registry (gone : Profile) :
    (m.releaseOwner gone).registry = m.registry := by
  unfold releaseOwner
  split
  · exact stopWatching_registry ..
  · rfl

@[simp] theorem releaseReplaced_registry (old : Option Profile) :
    (m.releaseReplaced old).registry = m.registry := by
  cases old with
  | none => rfl
  | some old => exact releaseOwner_registry ..

@[simp] theorem foldl_startWatching_registry (owned : List Profile) :
    (owned.foldl (fun m q => m.startWatching q.owner) m).registry = m.registry :=
  foldl_keeps m registry (fun m q => startWatching_registry m q.owner) owned

@[simp] theorem foldl_stopWatching_registry (packages : List String) :
    (packages.foldl stopWatching m).registry = m.registry :=
  foldl_keeps m registry stopWatching_registry packages

@[simp] theorem restore_registry (s : PersistedState) :
    (m.restore s).registry = m.registry.restore s := by
  unfold restore
  dsimp only
  rw [foldl_startWatching_registry, foldl_stopWatching_registry]

theorem isWatching_startWatching (app : AppIdentity) (package : String) :
    (m.startWatching app).isWatching package =
      (decide (package = app.package) || m.isWatching package) := by
  unfold startWatching isWatching
  split
  · rename_i h
    by_cases hp : package = app.package
    · rw [hp, h, Bool.or_true]
    · rw [decide_eq_false hp, Bool.false_or]
  · exact OrderedMap.contains_insert ..

theorem isWatching_stopWatching (package package' : String) :
    (m.stopWatching package).isWatching package' =
      (decide (package' ≠ package) && m.isWatching package') := by
  unfold stopWatching isWatching
  split
  · rename_i h
    by_cases hp : package' = package
    · rw [hp, OrderedMap.contains, h, Option.isSome_none, Bool.and_false]
    · rw [decide_eq_true hp, Bool.true_and]
  · exact OrderedMap.contains_erase ..

/-! ### Carriers -/

/-- Asking anew for a carrier changes nothing but, perhaps, the carrier, and stores it then. -/
theorem refreshCarrier_cases (fqdn : String) :
    m.refreshCarrier p fqdn = m ∨
    (∃ imsi answer, m.refreshCarrier p fqdn = m.record (.resolve imsi answer)) ∨
    (∃ imsi carrierId, m.refreshCarrier p fqdn =
      { m.record (.resolve imsi (some carrierId)) with
        registry := m.registry.modify fqdn (·.withCarrier carrierId) }.persist p) := by
  unfold refreshCarrier updateCarrier
  cases m.registry.get? fqdn with
  | none => exact Or.inl rfl
  | some q =>
    cases hq : q.config.sim.bind (·.fullImsi?) with
    | none => exact Or.inl (by simp only [hq])
    | some imsi =>
      refine Or.inr ?_
      simp only [hq, resolve]
      cases ha : p.resolve m.history imsi with
      | none => exact Or.inl ⟨imsi, none, rfl⟩
      | some carrierId =>
        by_cases hsame : q.config.carrierId = some carrierId
        · exact Or.inl ⟨imsi, some carrierId, by simp only [if_pos hsame]⟩
        · exact Or.inr ⟨imsi, carrierId, by simp only [if_neg hsame]; rfl⟩

@[simp] theorem refreshCarrier_watches (fqdn : String) :
    (m.refreshCarrier p fqdn).watches = m.watches := by
  rcases m.refreshCarrier_cases p fqdn with h | ⟨imsi, answer, h⟩ | ⟨imsi, carrierId, h⟩ <;>
    rw [h] <;> rfl

/-- Asking anew for a carrier leaves every profile in its place. -/
theorem refreshCarrier_stays (fqdn : String) :
    m.registry.Stays (m.refreshCarrier p fqdn).registry := by
  rcases m.refreshCarrier_cases p fqdn with h | ⟨imsi, answer, h⟩ | ⟨imsi, carrierId, h⟩ <;> rw [h]
  · exact .refl _
  · exact .refl _
  · exact .modify _ _ fun q => .withCarrier q carrierId

theorem hasSavedBy_refreshCarrier (fqdn package : String) :
    (m.refreshCarrier p fqdn).registry.hasSavedBy package = m.registry.hasSavedBy package := by
  rcases m.refreshCarrier_cases p fqdn with h | ⟨imsi, answer, h⟩ | ⟨imsi, carrierId, h⟩ <;> rw [h]
  · rfl
  · exact Registry.hasSavedBy_modify _ _ _ fun q => .withCarrier q carrierId

/-! ### Operations, case by case -/

/-- Enter a profile whose credential is in place, and watch its owner when told so. -/
def enter (m : Manager) (p : Platform) (q : Profile) (watch : Bool) : Manager :=
  (if watch then (m.commit p q).startWatching q.owner else m.commit p q).increment
    .installSucceeded

theorem stays_commit (q : Profile) : (m.registry.insert q).Stays (m.commit p q).registry := by
  unfold commit
  dsimp only
  have hrefresh := refreshCarrier_stays ((({ m with
    registry := m.registry.insert q }.retireReplaced p q (m.registry.get? q.fqdn)).persist
      p).releaseReplaced (m.registry.get? q.fqdn)) p q.fqdn
  rw [releaseReplaced_registry, persist_registry, retireReplaced_registry] at hrefresh
  exact hrefresh

theorem stays_enter (q : Profile) (watch : Bool) :
    (m.registry.insert q).Stays (m.enter p q watch).registry := by
  unfold enter
  rw [increment_registry]
  split
  · rw [startWatching_registry]
    exact stays_commit m p q
  · exact stays_commit m p q

/-- An import counts the attempt, and enters the profile that its entry becomes. -/
theorem importLegacy_eq (entry : Legacy.Entry) :
    m.importLegacy p entry =
      match entry.toProfileConfig with
      | .error reason => (.error (.unusable reason), m.increment .installAttempted)
      | .ok (config, type) =>
        let q := Profile.new config m.registry.nextIndex entry.creator .saved type
        (.ok (), { m.increment .installAttempted with registry := m.registry.takeIndex }.enter p q
          (q.owner.package ≠ "")) := by
  unfold importLegacy
  cases entry.toProfileConfig with
  | error reason => rfl
  | ok converted =>
    obtain ⟨config, type⟩ := converted
    unfold enter
    by_cases hpackage : entry.creatorPackage = ""
    · simp [Profile.new, Legacy.Entry.creator, hpackage]
    · simp [Profile.new, Legacy.Entry.creator, hpackage]

/-- An import counts the attempt and then fails at once, or enters a profile for the user. -/
theorem importLegacy_cases (entry : Legacy.Entry) :
    (∃ e, m.importLegacy p entry = (.error e, m.increment .installAttempted)) ∨
    ∃ q, q.index = m.registry.nextIndex ∧ q.owner = entry.creator ∧ q.isSaved = true ∧
      m.importLegacy p entry =
        (.ok (), { m.increment .installAttempted with registry := m.registry.takeIndex }.enter p q
          (q.owner.package ≠ "")) := by
  rw [importLegacy_eq]
  cases entry.toProfileConfig with
  | error reason => exact Or.inl ⟨_, rfl⟩
  | ok converted => exact Or.inr ⟨_, rfl, rfl, rfl, rfl⟩

/-- A removal counts the attempt and then fails at once, or takes a profile out. -/
theorem remove_cases (uid : UInt32) (privileged : Bool) (fqdn : String) :
    (∃ e, m.remove p uid privileged fqdn = (.error e, m.increment .uninstallAttempted)) ∨
    ∃ q, m.registry.get? fqdn = some q ∧ (privileged = true ∨ q.owner.uid = uid) ∧
      m.remove p uid privileged fqdn =
        (.ok (), (((({ m.increment .uninstallAttempted with
          registry := m.registry.erase fqdn }.retire p q).persist p).releaseOwner q).increment
            .uninstallSucceeded)) := by
  unfold remove
  cases hq : m.registry.get? fqdn with
  | none => exact Or.inl ⟨.notFound fqdn, by simp [hq]⟩
  | some q =>
    by_cases hallowed : (!privileged && q.owner.uid != uid) = true
    · exact Or.inl ⟨.notOwner fqdn, by simp only [increment_registry, hq, if_pos hallowed]⟩
    · refine Or.inr ⟨q, rfl, ?_, by simp only [increment_registry, hq, if_neg hallowed]⟩
      cases privileged with
      | true => exact Or.inl rfl
      | false => exact Or.inr (by simpa using hallowed)

/-- A watched package has lost its right: its profiles are removed, its watch ends, and so does
    a connection to a network of one of them.  The connection is looked at before anything is
    removed. -/
def revoke (m : Manager) (p : Platform) (uid : UInt32) (package : String) : Manager :=
  let asked := m.record (.isAuthorized { uid, package } false)
  let connected := p.connectedDomain asked.history
  (((asked.record (.connectedDomain connected)).removeSavedBy p package).2.stopWatching
    package).disconnectFrom connected (m.registry.savedBy package)

theorem revoke_registry (uid : UInt32) (package : String) :
    (m.revoke p uid package).registry = m.registry.eraseSavedBy package := by
  unfold revoke
  dsimp only
  rw [disconnectFrom_registry, stopWatching_registry, removeSavedBy_registry, record_registry,
    record_registry]

theorem revoke_watches (uid : UInt32) (package : String) :
    (m.revoke p uid package).watches = (m.stopWatching package).watches := by
  unfold revoke stopWatching
  dsimp only
  rw [disconnectFrom_watches, removeSavedBy_watches, record_watches, record_watches]
  split
  · rw [removeSavedBy_watches, record_watches, record_watches]
  · rfl

/-- A change of authorization does nothing for a package that is not watched, and asks about
    one that is. -/
theorem authorizationChanged_cases (package : String) :
    (m.watches.get? package = none ∧ m.authorizationChanged p package = (0, m)) ∨
    ∃ uid, m.watches.get? package = some uid ∧
      ((p.isAuthorized m.history { uid, package } = true ∧
        m.authorizationChanged p package = (0, m.record (.isAuthorized { uid, package } true))) ∨
      (p.isAuthorized m.history { uid, package } = false ∧
        m.authorizationChanged p package =
          ((m.registry.savedBy package).length, m.revoke p uid package))) := by
  unfold authorizationChanged isAuthorized connectedDomain
  cases huid : m.watches.get? package with
  | none => exact Or.inl ⟨rfl, rfl⟩
  | some uid =>
    refine Or.inr ⟨uid, rfl, ?_⟩
    cases hanswer : p.isAuthorized m.history { uid, package } with
    | true => exact Or.inl ⟨rfl, by simp only [hanswer]⟩
    | false => exact Or.inr ⟨rfl, by simp only [hanswer]; rfl⟩

end Manager

/-! ### Platforms and configurations to try -/

/-- A platform that grants whatever it is asked, with no carrier and no connection. -/
def Platform.obliging : Platform where
  now := 0
  acceptsFetch _ _ _ _ := true
  install _ _ := none
  uninstall _ _ := none
  verify _ _ := none
  persist _ _ := none
  resolve _ _ := none
  isAuthorized _ _ := true
  connectedDomain _ := none

def Platform.obligingAt (now : Millis) : Platform := { Platform.obliging with now }

/-- A platform on which everything fails while a domain is connected. -/
def Platform.failing (connected : Option String) : Platform where
  now := 0
  acceptsFetch _ _ _ _ := false
  install _ _ := some (.unavailable "store")
  uninstall _ _ := some (.unavailable "store")
  verify _ _ := some (.rejected "authority")
  persist _ _ := some (.unavailable "disk")
  resolve _ _ := none
  isAuthorized _ _ := false
  connectedDomain _ := connected

def Platform.locked : Platform :=
  { Platform.obliging with install := fun _ _ => some (.unavailable "store") }

/-- A complete configuration for a home domain, with a SIM card and a certificate authority. -/
def ProfileConfig.ofSim (fqdn : String) : ProfileConfig :=
  { ProfileConfig.empty with
    homeSp := some { fqdn, friendlyName := "Home", ois := [] }
    credential := some { Credential.ofRealm "realm" with
      caCertificate := some "ca"
      sim := some { imsi := "123456*", eapType := .sim } } }

def Legacy.Entry.ofSim (fqdn : String) : Legacy.Entry :=
  { fqdn, friendlyName := "Home", ois := [], creatorUid := 12, creatorPackage := "settings"
    enterprise := {
      eapMethod := .sim, phase2 := .none, identity := "", password := "", realm := "realm"
      plmn := "123456*", caAlias := none, clientAlias := none } }

end Hotspot
