/-
  Hotspot/Proofs/Revocation.lean
  ==============================
  **An application that lost its right.**

  When a watched application may no longer change Wi-Fi state, the profiles it installed for
  the user are removed together.  Since every owner of such a profile is watched, none is
  overlooked; since every profile is entered under its own domain, none is retired twice.  What
  the platform is asked meanwhile is `revocation`, whatever it answers.
-/
import Hotspot.Proofs.Numbering
import Hotspot.Proofs.Questions
import Hotspot.Proofs.Watching

namespace Hotspot

/-! ### Network entries -/

theorem Profile.fqdn_descriptor (q : Profile) : q.descriptor.fqdn = q.fqdn := by
  unfold descriptor fqdn ProfileConfig.fqdn
  cases q.config.homeSp <;> rfl

theorem Profile.fqdn_eq_of_key_eq {q q' : Profile} (hsource : q.source = q'.source)
    (hkey : q.descriptor.key = q'.descriptor.key) : q.fqdn = q'.fqdn := by
  have hkeys : NetworkDescriptor.keyFor q.descriptor.fqdn q.source =
      NetworkDescriptor.keyFor q'.descriptor.fqdn q'.source := hkey
  rw [fqdn_descriptor, fqdn_descriptor, hsource] at hkeys
  unfold NetworkDescriptor.keyFor at hkeys
  rw [← String.toList_inj] at hkeys ⊢
  simp only [String.toList_append, List.append_assoc] at hkeys
  exact List.append_cancel_right (List.append_cancel_left hkeys)

namespace Registry

variable {r : Registry} (package : String)

theorem nodup_savedBy (hr : r.Keyed) : (r.savedBy package).Nodup := by
  apply List.Pairwise.imp _ (hr.ne_of_ne.filter _)
  intro q q' hne heq
  exact hne (congrArg Profile.fqdn heq)

theorem nodup_keys_savedBy (hr : r.Keyed) :
    ((r.savedBy package).map (·.descriptor.key)).Nodup := by
  have hsaved : ∀ q ∈ r.savedBy package, q.source = .saved := by
    intro q hq
    have hs := (Profile.isSavedBy_iff.1 (mem_savedBy_iff.1 hq).2).1
    unfold Profile.isSaved at hs
    exact beq_iff_eq.1 hs
  rw [List.Nodup, List.pairwise_map]
  apply List.Pairwise.imp_of_mem _ (hr.ne_of_ne.filter _)
  intro q q' hq hq' hne hkey
  exact hne (Profile.fqdn_eq_of_key_eq ((hsaved q hq).trans (hsaved q' hq').symm) hkey)

theorem savedBy_eraseSavedBy : (r.eraseSavedBy package).savedBy package = [] := by
  rw [List.eq_nil_iff_forall_not_mem]
  intro q hq
  obtain ⟨⟨fqdn, hget⟩, hsaved⟩ := mem_savedBy_iff.1 hq
  rw [get?_eraseSavedBy, Option.filter_eq_some_iff, hsaved] at hget
  exact absurd hget.2 (by decide)

theorem savedBy_eq_nil_iff : r.savedBy package = [] ↔ r.hasSavedBy package = false := by
  rw [savedBy, hasSavedBy, List.filter_eq_nil_iff, List.any_eq_false]

end Registry

namespace Manager

variable (m : Manager) (p : Platform)

/-! ### What is asked -/

def retirement (q : Profile) : List Call :=
  [.increment .uninstallAttempted, .uninstall q none, .removeDescriptor q.descriptor.key,
    .increment .uninstallSucceeded]

/-- The domain that is connected once an application turned out to have lost its right. -/
def connectedAtLoss (uid : UInt32) (package : String) : Option String :=
  p.connectedDomain (.isAuthorized { uid, package } false :: m.history)

def revocation (uid : UInt32) (package : String) : List Call :=
  let removed := m.registry.savedBy package
  [.isAuthorized { uid, package } false, .connectedDomain none] ++
    removed.flatMap retirement ++
    (if removed = [] then [] else
      [.persist true (m.registry.eraseSavedBy package).toState none]) ++
    [.stopWatching { uid, package }] ++
    (if ∃ q ∈ removed, m.connectedAtLoss p uid package = some q.fqdn then [.disconnect] else [])

theorem asks_retireAll (removed : List Profile) :
    m.Asks (removed.foldl (fun m q => m.retireCounted p q) m) (removed.flatMap retirement) := by
  induction removed generalizing m with
  | nil => exact .quiet rfl
  | cons q rest ih =>
    rw [List.foldl_cons, List.flatMap_cons]
    have hone : m.Asks (m.retireCounted p q) (retirement q) :=
      .of_history [.increment .uninstallAttempted, .uninstall q _,
        .removeDescriptor q.descriptor.key, .increment .uninstallSucceeded] rfl rfl
    exact hone.trans (ih _)

theorem asks_persist : m.Asks (m.persist p) [.persist true m.registry.toState none] :=
  .record m _

theorem asks_removeSavedBy (package : String) :
    m.Asks (m.removeSavedBy p package).2
      ((m.registry.savedBy package).flatMap retirement ++
        if m.registry.savedBy package = [] then [] else
          [.persist true (m.registry.eraseSavedBy package).toState none]) := by
  have herased : m.Asks { m with registry := m.registry.eraseSavedBy package } [] := .quiet rfl
  have hretired := herased.trans
    (asks_retireAll { m with registry := m.registry.eraseSavedBy package } p
      (m.registry.savedBy package))
  rw [List.nil_append] at hretired
  unfold removeSavedBy
  dsimp only
  by_cases hempty : m.registry.savedBy package = []
  · rw [if_pos hempty, if_pos (List.isEmpty_iff.2 hempty), List.append_nil]
    exact hretired
  · rw [if_neg hempty, if_neg fun h => hempty (List.isEmpty_iff.1 h)]
    have hstored := asks_persist ((m.registry.savedBy package).foldl
      (fun m q => m.retireCounted p q) { m with registry := m.registry.eraseSavedBy package }) p
    rw [foldl_retireCounted_registry] at hstored
    exact hretired.trans hstored

theorem disconnectFrom_eq (domain : Option String) (removed : List Profile) :
    m.disconnectFrom domain removed =
      if ∃ q ∈ removed, domain = some q.fqdn then m.record .disconnect else m := by
  cases domain with
  | none => simp [disconnectFrom]
  | some domain =>
    have hiff : (removed.any fun r => r.fqdn == domain) = true ↔
        ∃ q ∈ removed, some domain = some q.fqdn := by
      simp only [List.any_eq_true, beq_iff_eq, Option.some.injEq, @eq_comm _ domain]
    simp only [disconnectFrom, hiff]

/-- **What a revocation asks.** -/
theorem asks_revoke {uid : UInt32} {package : String} (huid : m.watches.get? package = some uid) :
    m.Asks (m.revoke p uid package) (m.revocation p uid package) := by
  let asked := m.record (.isAuthorized { uid, package } false)
  let looked := asked.record (.connectedDomain (m.connectedAtLoss p uid package))
  let stripped := (looked.removeSavedBy p package).2
  have hlooked : m.Asks looked [.isAuthorized { uid, package } false, .connectedDomain none] :=
    (Asks.record m _).trans (Asks.record asked _)
  have hstripped := hlooked.trans (asks_removeSavedBy looked p package)
  have hwatched : stripped.watches.get? package = some uid := by
    rw [show stripped.watches = m.watches from removeSavedBy_watches ..]
    exact huid
  have hstop : stripped.Asks (stripped.stopWatching package) [.stopWatching { uid, package }] := by
    unfold stopWatching
    rw [hwatched]
    exact .of_history [.stopWatching { uid, package }] rfl rfl
  have hsever : (stripped.stopWatching package).Asks (m.revoke p uid package)
      (if ∃ q ∈ m.registry.savedBy package, m.connectedAtLoss p uid package = some q.fqdn then
        [.disconnect] else []) := by
    have hrevoke : m.revoke p uid package = (stripped.stopWatching package).disconnectFrom
        (m.connectedAtLoss p uid package) (m.registry.savedBy package) := rfl
    rw [hrevoke, disconnectFrom_eq]
    split
    · exact .record _ .disconnect
    · exact .quiet rfl
  have hall := (hstripped.trans hstop).trans hsever
  unfold revocation
  simp only [List.append_assoc] at hall ⊢
  exact hall

/-! ### Projections -/

/-- A projection of what a revocation asks, in the parts that depend on what is removed. -/
theorem filterMap_revocation {α : Type} (uid : UInt32) (package : String)
    {view : Call → Option α} (hauthorized : ∀ app answer, view (.isAuthorized app answer) = none)
    (hconnected : ∀ answer, view (.connectedDomain answer) = none)
    (hstop : ∀ app, view (.stopWatching app) = none) (hdisconnect : view .disconnect = none) :
    (m.revocation p uid package).filterMap view =
      (m.registry.savedBy package).flatMap (fun q => (retirement q).filterMap view) ++
        if m.registry.savedBy package = [] then [] else
          (view (.persist true (m.registry.eraseSavedBy package).toState none)).toList := by
  have hend : (if ∃ q ∈ m.registry.savedBy package,
      m.connectedAtLoss p uid package = some q.fqdn then [Call.disconnect] else []).filterMap view =
        [] := by
    split
    · simp only [List.filterMap_cons, hdisconnect, List.filterMap_nil]
    · rfl
  have hstored : (if m.registry.savedBy package = [] then [] else
      [Call.persist true (m.registry.eraseSavedBy package).toState none]).filterMap view =
        if m.registry.savedBy package = [] then [] else
          (view (.persist true (m.registry.eraseSavedBy package).toState none)).toList := by
    split
    · rfl
    · cases hview : view (.persist true (m.registry.eraseSavedBy package).toState none) with
      | none => simp only [List.filterMap_cons, hview, List.filterMap_nil, Option.toList_none]
      | some a => simp only [List.filterMap_cons, hview, List.filterMap_nil, Option.toList_some]
  unfold revocation
  dsimp only
  simp only [List.filterMap_append, hend, hstored, List.filterMap_flatMap, List.filterMap_cons,
    hauthorized, hconnected, hstop, List.filterMap_nil, List.nil_append, List.append_nil]

variable {m p} {uid : UInt32} {package : String}

theorem uninstalled_revoke (huid : m.watches.get? package = some uid) :
    (callsSince m.history (m.revoke p uid package).history).filterMap Call.uninstalled? =
      m.registry.savedBy package := by
  rw [(asks_revoke m p huid).filterMap_eq Call.uninstalled?_question,
    filterMap_revocation m p uid package (fun _ _ => rfl) (fun _ => rfl) (fun _ => rfl) rfl]
  have hone : ∀ q : Profile, (retirement q).filterMap Call.uninstalled? = [q] := fun _ => rfl
  simp only [hone, Call.uninstalled?, Option.toList_none, ite_self, List.append_nil,
    List.flatMap_singleton']

theorem removedKeys_revoke (huid : m.watches.get? package = some uid) :
    (callsSince m.history (m.revoke p uid package).history).filterMap Call.removedKey? =
      (m.registry.savedBy package).map (·.descriptor.key) := by
  rw [(asks_revoke m p huid).filterMap_eq Call.removedKey?_question,
    filterMap_revocation m p uid package (fun _ _ => rfl) (fun _ => rfl) (fun _ => rfl) rfl]
  have hone : ∀ q : Profile, (retirement q).filterMap Call.removedKey? = [q.descriptor.key] :=
    fun _ => rfl
  simp only [hone, Call.removedKey?, Option.toList_none, ite_self, List.append_nil,
    List.map_eq_flatMap]

theorem stored_revoke (huid : m.watches.get? package = some uid) :
    (callsSince m.history (m.revoke p uid package).history).filterMap Call.stored? =
      if m.registry.savedBy package = [] then [] else
        [(m.revoke p uid package).registry.toState] := by
  rw [(asks_revoke m p huid).filterMap_eq Call.stored?_question,
    filterMap_revocation m p uid package (fun _ _ => rfl) (fun _ => rfl) (fun _ => rfl) rfl,
    revoke_registry]
  have hone : ∀ q : Profile, (retirement q).filterMap Call.stored? = [] := fun _ => rfl
  simp only [hone, Call.stored?, Option.toList_some]
  rw [List.flatMap_eq_nil_iff.2 fun _ _ => rfl, List.nil_append]

theorem disconnect_mem_revoke_iff (huid : m.watches.get? package = some uid) :
    Call.disconnect ∈ callsSince m.history (m.revoke p uid package).history ↔
      ∃ q ∈ m.registry.savedBy package, m.connectedAtLoss p uid package = some q.fqdn := by
  rw [(asks_revoke m p huid).disconnect_mem_iff]
  have hretirement : Call.disconnect ∉ (m.registry.savedBy package).flatMap retirement := by
    intro hmem
    obtain ⟨q, -, hq⟩ := List.mem_flatMap.1 hmem
    simp [retirement] at hq
  have hstored : Call.disconnect ∉ (if m.registry.savedBy package = [] then [] else
      [Call.persist true (m.registry.eraseSavedBy package).toState none]) := by
    split
    · exact List.not_mem_nil
    · simp
  unfold revocation
  dsimp only
  constructor
  · intro hmem
    by_cases hsever : ∃ q ∈ m.registry.savedBy package,
        m.connectedAtLoss p uid package = some q.fqdn
    · exact hsever
    · rw [if_neg hsever, List.append_nil] at hmem
      simp [hretirement, hstored] at hmem
  · intro hsever
    rw [if_pos hsever]
    exact List.mem_append_right _ List.mem_cons_self

/-! ### The whole change -/

theorem authorizationChanged_of_authorized
    (h : ∀ uid, m.watches.get? package = some uid →
      p.isAuthorized m.history { uid, package } = true) :
    (m.authorizationChanged p package).1 = 0 ∧
      ∃ calls, (m.authorizationChanged p package).2 = { m with history := calls ++ m.history } ∧
        ∀ c ∈ calls, ∃ uid, c = .isAuthorized { uid, package } true := by
  rcases m.authorizationChanged_cases p package with
    ⟨-, he⟩ | ⟨uid, huid, ⟨-, he⟩ | ⟨hlost, -⟩⟩
  · rw [he]
    exact ⟨rfl, [], rfl, fun c hc => nomatch hc⟩
  · rw [he]
    refine ⟨rfl, [.isAuthorized { uid, package } true], rfl, ?_⟩
    intro c hc
    exact ⟨uid, List.mem_singleton.1 hc⟩
  · rw [h uid huid] at hlost
    cases hlost

theorem savedBy_eq_nil_of_not_watched (h : WatchesOwners m) (hne : package ≠ "")
    (hw : m.watches.get? package = none) : m.registry.savedBy package = [] := by
  rw [Registry.savedBy_eq_nil_iff]
  apply Bool.eq_false_iff.2
  intro howns
  have hwatched := h.watched_of_owner package hne howns
  rw [isWatching, OrderedMap.contains, hw] at hwatched
  cases hwatched

/-- A package that lost its right is either not watched and owns nothing for the user, or
    revoked. -/
theorem authorizationChanged_of_lost (h : WatchesOwners m) (hne : package ≠ "")
    (hlost : ∀ uid, p.isAuthorized m.history { uid, package } = false) :
    (m.watches.get? package = none ∧ m.registry.savedBy package = [] ∧
      m.authorizationChanged p package = (0, m)) ∨
    ∃ uid, m.watches.get? package = some uid ∧ m.authorizationChanged p package =
      ((m.registry.savedBy package).length, m.revoke p uid package) := by
  rcases m.authorizationChanged_cases p package with
    ⟨hw, he⟩ | ⟨uid, huid, ⟨hkept, -⟩ | ⟨-, he⟩⟩
  · exact Or.inl ⟨hw, savedBy_eq_nil_of_not_watched h hne hw, he⟩
  · rw [hlost uid] at hkept
    cases hkept
  · exact Or.inr ⟨uid, huid, he⟩

/-- `m'` is `m` after a package lost its profiles of the user, of which there were `n`. -/
structure LosesProfiles (m : Manager) (p : Platform) (package : String) (n : Nat)
    (m' : Manager) : Prop where
  none_left : m'.registry.savedBy package = []
  not_watched : m'.isWatching package = false
  others_kept : ∀ fqdn, m'.registry.get? fqdn =
    (m.registry.get? fqdn).filter fun q => !q.isSavedBy package
  nextIndex : m'.registry.nextIndex = m.registry.nextIndex
  counted : n = (m.registry.savedBy package).length
  size : m'.registry.profiles.size + n = m.registry.profiles.size
  /-- Every removed profile is uninstalled, and none twice. -/
  uninstalled : (callsSince m.history m'.history).filterMap Call.uninstalled? =
    m.registry.savedBy package
  uninstalled_once : (m.registry.savedBy package).Nodup
  /-- The network entry of every removed profile is removed, and none twice. -/
  entries : (callsSince m.history m'.history).filterMap Call.removedKey? =
    (m.registry.savedBy package).map (·.descriptor.key)
  entries_once : ((m.registry.savedBy package).map (·.descriptor.key)).Nodup
  stored : (callsSince m.history m'.history).filterMap Call.stored? =
    if m.registry.savedBy package = [] then [] else [m'.registry.toState]
  /-- The connection is ended when it was to the network of a removed profile. -/
  severed : Call.disconnect ∈ callsSince m.history m'.history ↔
    ∃ uid, m.watches.get? package = some uid ∧
      ∃ q ∈ m.registry.savedBy package, m.connectedAtLoss p uid package = some q.fqdn

theorem losesProfiles_of_nothing (hnil : m.registry.savedBy package = [])
    (hw : m.watches.get? package = none) : LosesProfiles m p package 0 m := by
  have hcalls : callsSince m.history m.history = [] := callsSince_append [] m.history
  constructor
  case none_left => exact hnil
  case not_watched => rw [isWatching, OrderedMap.contains, hw, Option.isSome_none]
  case others_kept =>
    intro fqdn
    rw [← Registry.get?_eraseSavedBy, Registry.eraseSavedBy_eq_self hnil]
  case nextIndex => rfl
  case counted => rw [hnil, List.length_nil]
  case size => rfl
  case uninstalled => rw [hcalls, hnil, List.filterMap_nil]
  case uninstalled_once => rw [hnil]; exact List.nodup_nil
  case entries => rw [hcalls, hnil, List.filterMap_nil, List.map_nil]
  case entries_once => rw [hnil]; exact List.nodup_nil
  case stored => rw [hcalls, if_pos hnil, List.filterMap_nil]
  case severed =>
    rw [hcalls, hnil]
    simp

theorem losesProfiles_revoke (hkeyed : m.registry.Keyed)
    (huid : m.watches.get? package = some uid) :
    LosesProfiles m p package (m.registry.savedBy package).length (m.revoke p uid package) := by
  have hregistry := revoke_registry m p uid package
  constructor
  case none_left => rw [hregistry, Registry.savedBy_eraseSavedBy]
  case not_watched =>
    rw [isWatching, revoke_watches, ← isWatching, isWatching_stopWatching,
      decide_eq_false (fun h => h rfl), Bool.false_and]
  case others_kept =>
    intro fqdn
    rw [hregistry, Registry.get?_eraseSavedBy]
  case nextIndex =>
    rw [hregistry]
    rfl
  case counted => rfl
  case size =>
    rw [hregistry]
    exact OrderedMap.size_filter_add (fun q : Profile => q.isSavedBy package) m.registry.profiles
  case uninstalled => exact uninstalled_revoke huid
  case uninstalled_once => exact Registry.nodup_savedBy package hkeyed
  case entries => exact removedKeys_revoke huid
  case entries_once => exact Registry.nodup_keys_savedBy package hkeyed
  case stored => exact stored_revoke huid
  case severed =>
    rw [disconnect_mem_revoke_iff huid]
    constructor
    · intro h
      exact ⟨uid, huid, h⟩
    · rintro ⟨uid', huid', h⟩
      rw [huid, Option.some.injEq] at huid'
      exact huid' ▸ h

/-- When the connection does not hang on the question about the right, it is the one before
    the change that is ended. -/
theorem LosesProfiles.severed_iff {n : Nat} {m' : Manager} (h : LosesProfiles m p package n m')
    (howners : WatchesOwners m) (hne : package ≠ "")
    (hsteady : ∀ uid, m.connectedAtLoss p uid package = p.connectedDomain m.history) :
    Call.disconnect ∈ callsSince m.history m'.history ↔
      ∃ q ∈ m.registry.savedBy package, p.connectedDomain m.history = some q.fqdn := by
  rw [h.severed]
  simp only [hsteady]
  constructor
  · rintro ⟨uid, -, hq⟩
    exact hq
  · rintro ⟨q, hq, hconnected⟩
    cases hw : m.watches.get? package with
    | none =>
      rw [savedBy_eq_nil_of_not_watched howners hne hw] at hq
      cases hq
    | some uid => exact ⟨uid, rfl, q, hq, hconnected⟩

/-- **Losing the right costs an application its profiles of the user, and nothing else**; an
    application that keeps the right keeps everything. -/
theorem revocation_is_complete_and_confined {m : Manager} (hm : m.Reachable) (p : Platform)
    {package : String} (hne : package ≠ "") :
    let n := (m.authorizationChanged p package).1
    let m' := (m.authorizationChanged p package).2
    ((∀ uid, p.isAuthorized m.history { uid, package } = false) →
      LosesProfiles m p package n m' ∧
      ((∀ uid, m.connectedAtLoss p uid package = p.connectedDomain m.history) →
        (Call.disconnect ∈ callsSince m.history m'.history ↔
          ∃ q ∈ m.registry.savedBy package, p.connectedDomain m.history = some q.fqdn))) ∧
    ((∀ uid, m.watches.get? package = some uid →
        p.isAuthorized m.history { uid, package } = true) →
      n = 0 ∧ ∃ asked, m' = { m with history := asked ++ m.history } ∧
        ∀ c ∈ asked, ∃ uid, c = .isAuthorized { uid, package } true) := by
  intro n m'
  have hkeyed := keyed_of_reachable hm
  have howners := watchesOwners_of_reachable hm
  refine ⟨fun hlost => ?_, authorizationChanged_of_authorized⟩
  have hloses : LosesProfiles m p package n m' := by
    rcases authorizationChanged_of_lost howners hne hlost with ⟨hw, hnil, he⟩ | ⟨uid, huid, he⟩
    · rw [show n = 0 from congrArg Prod.fst he, show m' = m from congrArg Prod.snd he]
      exact losesProfiles_of_nothing hnil hw
    · rw [show n = _ from congrArg Prod.fst he, show m' = _ from congrArg Prod.snd he]
      exact losesProfiles_revoke hkeyed huid
  exact ⟨hloses, hloses.severed_iff howners hne⟩

/-- An application installs two profiles for the user and suggests a third; another one
    installs a fourth. -/
def stocked : List Step :=
  [(.obliging, .add (some (.ofSim "a.example")) ⟨10, "shop"⟩ false),
    (.obliging, .add (some (.ofSim "b.example")) ⟨10, "shop"⟩ false),
    (.obliging, .add (some (.ofSim "c.example")) ⟨10, "shop"⟩ true),
    (.obliging, .add (some (.ofSim "d.example")) ⟨11, "mail"⟩ false)]

theorem revocation_is_complete_and_confined_shop :
    let m := (new .default .default).run stocked
    let p := Platform.failing (some "b.example")
    let m' := (m.authorizationChanged p "shop").2
    (m.registry.savedBy "shop").length = 2 ∧
      LosesProfiles m p "shop" 2 m' ∧
      Call.disconnect ∈ callsSince m.history m'.history := by
  intro m p m'
  have hm : m.Reachable := ⟨.default, .default, stocked, rfl⟩
  have hrevoked := (revocation_is_complete_and_confined hm p
    (show "shop" ≠ "" by decide)).1 fun _ => rfl
  have hcount : (m.registry.savedBy "shop").length = 2 := by decide
  have hn : (m.authorizationChanged p "shop").1 = 2 :=
    hrevoked.1.counted.trans hcount
  refine ⟨hcount, hn ▸ hrevoked.1, (hrevoked.2 fun _ => rfl).2 ?_⟩
  decide

end Manager

end Hotspot
