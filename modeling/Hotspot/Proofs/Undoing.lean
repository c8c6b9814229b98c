/-
  Hotspot/Proofs/Undoing.lean
  ===========================
  **Removing a profile undoes its installation.**

  A profile that is new to its domain takes no other profile's place, so taking it out again gives
  the profiles that there were.  The watches are less plain.  Entering a profile for the user
  starts the watch of its owner unless there is one, and taking it out stops the watch if the owner
  has no other such profile; nobody notes whether the one goes with the other.  It does, since a
  package is watched just if it owns a profile for the user (`WatchesOwners`): of an owner that had
  a profile already the watch was neither started nor is it stopped, and of any other owner it was
  started and is stopped (`WatchesOwners.takeOut_entered`).

  The number that was given away stays so.
-/
import Hotspot.Proofs.Custody
import Hotspot.Proofs.Identities
import Hotspot.Proofs.Readding

namespace Hotspot

/-- To take out what was entered under a new domain leaves nothing but the number that it got. -/
theorem Registry.erase_entered {r : Registry} {e : Profile} (h : r.get? e.fqdn = none)
    (f : Profile → Profile) :
    ((r.takeIndex.insert e).modify e.fqdn f).erase e.fqdn = r.takeIndex := by
  have hprofiles : (((r.takeIndex.insert e).modify e.fqdn f).erase e.fqdn).profiles =
      r.profiles := by
    apply OrderedMap.ext_get?
    intro fqdn
    change (((r.takeIndex.insert e).modify e.fqdn f).erase e.fqdn).get? fqdn = r.get? fqdn
    rw [get?_erase, get?_modify, get?_insert]
    by_cases hfqdn : fqdn = e.fqdn
    · rw [if_pos hfqdn, hfqdn, h]
    · rw [if_neg hfqdn, if_neg hfqdn, if_neg hfqdn]
      rfl
  exact congrArg (Registry.mk · (r.nextIndex + 1)) hprofiles

/-- Before the last number the next one is larger by one. -/
theorem Registry.toNat_takeIndex {r : Registry} (h : r.nextIndex ≠ lastIndex) :
    r.takeIndex.nextIndex.toNat = r.nextIndex.toNat + 1 := by
  have hlast : lastIndex.toNat = 2 ^ 64 - 1 := by decide
  have hne : r.nextIndex.toNat ≠ lastIndex.toNat := fun hc => h (UInt64.toNat_inj.1 hc)
  have hbound : r.nextIndex.toNat < 2 ^ 64 := r.nextIndex.toNat_lt
  have hone : (1 : UInt64).toNat = 1 := rfl
  rw [takeIndex, UInt64.toNat_add, hone]
  omega

namespace Manager

variable {m m' : Manager} {p p' : Platform} {q : Profile} {fqdn package : String}

/-! ### The watch of an owner -/

/-- A profile that is gone takes the watch of its owner with it if it was the last for the user. -/
theorem get?_releaseOwner (m : Manager) (gone : Profile) (package : String) :
    (m.releaseOwner gone).watches.get? package =
      if gone.isSavedBy package = true ∧ m.registry.hasSavedBy package = false then none
      else m.watches.get? package := by
  simp only [releaseOwner, Bool.and_eq_true, Bool.not_eq_true', Profile.isSavedBy_iff]
  by_cases hlast : gone.isSaved = true ∧ m.registry.hasSavedBy gone.owner.package = false
  · rw [if_pos hlast, get?_stopWatching]
    by_cases hpackage : package = gone.owner.package
    · rw [if_pos hpackage, if_pos ⟨⟨hlast.1, hpackage.symm⟩, hpackage ▸ hlast.2⟩]
    · rw [if_neg hpackage, if_neg fun h => hpackage h.1.2.symm]
  · rw [if_neg hlast, if_neg]
    rintro ⟨⟨hsaved, rfl⟩, hnone⟩
    exact hlast ⟨hsaved, hnone⟩

/-- A profile that is new to its domain stops no watch. -/
theorem commit_watches (h : m.registry.get? q.fqdn = none) :
    (m.commit p q).watches = m.watches := by
  unfold commit
  dsimp only
  rw [refreshCarrier_watches, h]
  rfl

/-- With a profile that is entered for the user, and is new to its domain, the watch of its owner
    starts unless there is one. -/
theorem get?_enter_watches (h : m.registry.get? q.fqdn = none) (package : String) :
    (m.enter p q q.isSaved).watches.get? package =
      if q.isSavedBy package = true ∧ m.watches.get? package = none then some q.owner.uid
      else m.watches.get? package := by
  have hcommitted : (m.commit p q).watches = m.watches := commit_watches h
  have hentered : (m.enter p q q.isSaved).watches =
      if q.isSaved = true ∧ m.watches.get? q.owner.package = none then
        m.watches.insert q.owner.package q.owner.uid
      else m.watches := by
    cases hsaved : q.isSaved with
    | false => exact hcommitted
    | true =>
      have hstarted : (m.enter p q true).watches =
          ((m.commit p q).startWatching q.owner).watches := rfl
      rw [hstarted, startWatching, OrderedMap.contains, hcommitted]
      cases m.watches.get? q.owner.package with
      | none => simp
      | some uid => simp [hcommitted]
  simp only [hentered, Profile.isSavedBy_iff]
  by_cases hstarts : q.isSaved = true ∧ m.watches.get? q.owner.package = none
  · rw [if_pos hstarts, OrderedMap.get?_insert]
    by_cases hpackage : package = q.owner.package
    · rw [if_pos hpackage, if_pos ⟨⟨hstarts.1, hpackage.symm⟩, hpackage ▸ hstarts.2⟩]
    · rw [if_neg hpackage, if_neg fun h => hpackage h.1.2.symm]
  · rw [if_neg hstarts, if_neg]
    rintro ⟨⟨hsaved, rfl⟩, hnone⟩
    exact hstarts ⟨hsaved, hnone⟩

/-! ### Taking out -/

/-- What the removal of a profile is, to one who may. -/
def takeOut (m : Manager) (p : Platform) (q : Profile) : Manager :=
  (((({ m.increment .uninstallAttempted with registry := m.registry.erase q.fqdn }.retire p
    q).persist p).releaseOwner q).increment .uninstallSucceeded)

theorem remove_of_owner (hget : m.registry.get? fqdn = some q) (hkey : q.fqdn = fqdn) :
    m.remove p q.owner.uid false fqdn = (.ok (), m.takeOut p q) := by
  subst hkey
  simp [remove, hget, takeOut]

theorem takeOut_registry (m : Manager) (p : Platform) (q : Profile) :
    (m.takeOut p q).registry = m.registry.erase q.fqdn := by
  rw [takeOut, increment_registry, releaseOwner_registry]
  rfl

theorem get?_takeOut_watches (m : Manager) (p : Platform) (q : Profile) (package : String) :
    (m.takeOut p q).watches.get? package =
      if q.isSavedBy package = true ∧ (m.registry.erase q.fqdn).hasSavedBy package = false then none
      else m.watches.get? package := by
  have hreleased := get?_releaseOwner (({ m.increment .uninstallAttempted with
    registry := m.registry.erase q.fqdn }.retire p q).persist p) q package
  exact hreleased

theorem does_takeOut (m : Manager) (p : Platform) (q : Profile) :
    m.Does (m.takeOut p q) (dismissal none q ++ [.store (m.registry.erase q.fqdn).toState]) := by
  have hcounted : m.Does (m.increment .uninstallAttempted) [] := Does.increment _ (.idle rfl)
  have herased : m.Does { m.increment .uninstallAttempted with
      registry := m.registry.erase q.fqdn } [] := hcounted.idleCalls [] rfl (by simp)
  exact (((herased.retire (p := p) q).persist (p := p)).releaseOwner q).increment
    .uninstallSucceeded

/-! ### Adding and taking out -/

/-- **What an accepted request for a new domain does.** -/
theorem entered_of_new {r : InstallRequest} {config : ProfileConfig}
    (h : ∀ g, r.failure m p g = none) (hconfig : r.config? = some config)
    (hnew : m.registry.get? config.fqdn = none) :
    let added := (m.add p r.config? r.caller r.isSuggestion).2
    ∃ e, e.fqdn = config.fqdn ∧ e.owner = r.caller ∧
      (∃ asked, added.registry =
        (m.registry.takeIndex.insert e).modify e.fqdn (·.recarried (p.resolve asked))) ∧
      (∀ package, added.watches.get? package =
        if e.isSavedBy package = true ∧ m.watches.get? package = none then some e.owner.uid
        else m.watches.get? package) ∧
      ∃ stored : List PersistedState, m.Does added (.install e true :: stored.map .store) := by
  intro added
  obtain ⟨e, he, hadd⟩ := add_of_accepted m p r h
  obtain ⟨hentered, howner, -⟩ := InstallRequest.of_profile? he
  have hfqdn : e.fqdn = config.fqdn :=
    congrArg ProfileConfig.fqdn (Option.some.inj (hentered.symm.trans hconfig))
  have hnew' : (r.accepted m p).registry.get? e.fqdn = none := by
    rw [hfqdn]
    exact hnew
  have hadded : added = (r.accepted m p).enter p e e.isSaved := congrArg Prod.snd hadd
  refine ⟨e, hfqdn, howner, ?_, ?_, ?_⟩
  · rw [hadded]
    exact enter_registry ..
  · intro package
    rw [hadded]
    exact get?_enter_watches hnew' package
  · have hinstalled : p.install (r.atInstall m p) e = none :=
      (r.failure_install_eq_none_iff he).1 (h .install)
    have hdoes := does_callsThrough (m := m) (p := p) r .install (r.accepted m p) rfl
    rw [if_pos rfl, he] at hdoes
    obtain ⟨stored, hdoes, -⟩ := hdoes.enter (p := p) e e.isSaved
    rw [hnew'] at hdoes
    refine ⟨stored, ?_⟩
    rw [hadded]
    simpa [hinstalled] using hdoes

/-- A package is not watched just if it owns no profile for the user. -/
theorem WatchesOwners.unwatched_iff (h : WatchesOwners m) (hpackage : package ≠ "") :
    m.watches.get? package = none ↔ m.registry.hasSavedBy package = false := by
  have hwatched : m.isWatching package = true ↔ m.registry.hasSavedBy package = true :=
    ⟨h.owner_of_watched package, h.watched_of_owner package hpackage⟩
  rw [← Bool.not_eq_true, ← hwatched, isWatching, OrderedMap.contains, Bool.not_eq_true,
    Option.isSome_eq_false_iff, Option.isNone_iff_eq_none]

/-- **The watches after a profile came and went** are those of before. -/
theorem WatchesOwners.takeOut_entered {e : Profile} (h : WatchesOwners m)
    (hpackage : e.owner.package ≠ "")
    (hwatches : ∀ package, m'.watches.get? package =
      if e.isSavedBy package = true ∧ m.watches.get? package = none then some e.owner.uid
      else m.watches.get? package)
    (hsame : e.SameInstallation q)
    (howners : (m'.registry.erase q.fqdn).hasSavedBy = m.registry.hasSavedBy) :
    (m'.takeOut p q).watches = m.watches := by
  apply OrderedMap.ext_get?
  intro package
  rw [get?_takeOut_watches, howners, hsame.isSavedBy, hwatches]
  by_cases howns : e.isSavedBy package = true
  · have hunwatched := h.unwatched_iff ((Profile.isSavedBy_iff.1 howns).2 ▸ hpackage)
    by_cases hlast : m.registry.hasSavedBy package = false
    · rw [if_pos ⟨howns, hlast⟩, hunwatched.2 hlast]
    · rw [if_neg fun h => hlast h.2, if_neg fun h => hlast (hunwatched.1 h.2)]
  · rw [if_neg fun h => howns h.1, if_neg fun h => howns h.1]

/-- **What is asked of the platform** by an installation and the removal that follows it. -/
theorem asked_by_takeOut {e : Profile} {stored : List PersistedState}
    (h : m.Does m' (.install e true :: stored.map .store)) (p : Platform) (q : Profile) :
    (callsSince m.history m'.history).filterMap Call.installed? = [e] ∧
    (callsSince m.history (m'.takeOut p q).history).filterMap Call.uninstalled? = [q] ∧
    (callsSince m.history (m'.takeOut p q).history).filterMap Call.removedKey? =
      [q.descriptor.key] := by
  have hdone := h.trans (does_takeOut m' p q)
  refine ⟨?_, ?_, ?_⟩
  · rw [h.filterMap_eq Call.installed?_eq]
    simp [Deed.installed?]
  · rw [hdone.filterMap_eq Call.uninstalled?_eq]
    simp [List.filterMap_cons, Deed.uninstalled?, dismissal, Profile.leavesEntryTo]
  · rw [hdone.filterMap_eq Call.removedKey?_eq]
    simp [List.filterMap_cons, Deed.removedKey?, dismissal, Profile.leavesEntryTo]

/-- **Adding and removing is undone.**  When a profile is added for a domain that has none, its
    owner can remove it again.  All profiles and all watches are then as they were; the credential
    that was installed is the one that was taken out, and the network entry of the profile the one
    that was removed.  The number that it had is used up. -/
theorem removing_undoes_adding {config : ProfileConfig} {caller : AppIdentity}
    {isSuggestion : Bool} (hm : m.Reachable) (hpackage : caller.package ≠ "")
    (hnew : m.registry.get? config.fqdn = none)
    (hadd : (m.add p (some config) caller isSuggestion).1 = .ok ()) (p' : Platform) :
    let added := (m.add p (some config) caller isSuggestion).2
    let removal := added.remove p' caller.uid false config.fqdn
    let calls := callsSince m.history removal.2.history
    removal.1 = .ok () ∧
    removal.2.registry.profiles = m.registry.profiles ∧
    removal.2.watches = m.watches ∧
    removal.2.registry.nextIndex = m.registry.nextIndex + 1 ∧
    (m.registry.nextIndex ≠ Registry.lastIndex →
      removal.2.registry.nextIndex.toNat = m.registry.nextIndex.toNat + 1) ∧
    ∃ q, added.registry.get? config.fqdn = some q ∧
      ((callsSince m.history added.history).filterMap Call.installed?).map (·.credentialAlias) =
        [q.credentialAlias] ∧
      (calls.filterMap Call.uninstalled?).map (·.credentialAlias) = [q.credentialAlias] ∧
      calls.filterMap Call.removedKey? = [q.descriptor.key] := by
  intro added removal calls
  let r : InstallRequest := { config? := some config, caller, isSuggestion }
  obtain ⟨e, hfqdn, howner, ⟨asked, hregistry⟩, hwatches, stored, hadded⟩ :=
    entered_of_new (failure_eq_none_of_add_eq_ok m p r hadd) rfl hnew
  let q := e.recarried (p.resolve asked)
  have hsame : e.SameSubscription q := e.sameSubscription_recarried _
  have hget : added.registry.get? config.fqdn = some q := by
    rw [hregistry, Registry.get?_modify, Registry.get?_insert, if_pos hfqdn.symm,
      if_pos hfqdn.symm]
    rfl
  have hremoval : removal = (.ok (), added.takeOut p' q) := by
    have huid : q.owner.uid = caller.uid := congrArg AppIdentity.uid (hsame.owner.trans howner)
    rw [← remove_of_owner hget (hsame.fqdn.trans hfqdn), huid]
  have herased : added.registry.erase q.fqdn = m.registry.takeIndex := by
    rw [hregistry, hsame.fqdn, Registry.erase_entered (hfqdn ▸ hnew)]
  have hafter : removal.2.registry = m.registry.takeIndex := by
    rw [hremoval, takeOut_registry, herased]
  have hcalls : calls = callsSince m.history (added.takeOut p' q).history :=
    congrArg (fun done => callsSince m.history done.2.history) hremoval
  obtain ⟨hinstalled, huninstalled, hremoved⟩ := asked_by_takeOut hadded p' q
  have halias : e.credentialAlias = q.credentialAlias := Profile.alias_eq_iff.2 hsame.index.symm
  refine ⟨congrArg Prod.fst hremoval, congrArg (·.profiles) hafter, ?_,
    congrArg (·.nextIndex) hafter, ?_, q, hget, ?_, ?_, ?_⟩
  · rw [hremoval]
    exact (watchesOwners_of_reachable hm).takeOut_entered (howner ▸ hpackage) hwatches
      hsame.toSameInstallation (congrArg (·.hasSavedBy) herased)
  · intro hlast
    rw [hafter, Registry.toNat_takeIndex hlast]
  · rw [hinstalled, List.map_singleton, halias]
  · rw [hcalls, huninstalled, List.map_singleton]
  · rw [hcalls, hremoved]

/-- An application that is watched for one profile installs another and removes it, while nothing
    that it asks of the platform is done. -/
theorem removing_undoes_adding_second :
    let m := (new .default .default).run
      [(.obliging, .add (some (.ofSim "a.example")) ⟨10, "shop"⟩ false)]
    let config := ProfileConfig.ofSim "b.example"
    let caller : AppIdentity := ⟨10, "shop"⟩
    let removal := ((m.add .obliging (some config) caller false).2).remove (.failing none)
      caller.uid false config.fqdn
    m.isWatching "shop" = true ∧ removal.1 = .ok () ∧
      removal.2.registry.profiles = m.registry.profiles ∧ removal.2.watches = m.watches ∧
      removal.2.registry.nextIndex.toNat = m.registry.nextIndex.toNat + 1 := by
  intro m config caller
  have hm : m.Reachable := ⟨.default, .default, _, rfl⟩
  have hnew : m.registry.get? config.fqdn = none := by decide
  have hadd : (m.add .obliging (some config) caller false).1 = .ok () := by decide
  obtain ⟨hok, hprofiles, hwatches, -, hnumber, -⟩ :=
    removing_undoes_adding hm (by decide) hnew hadd (.failing none)
  exact ⟨by decide, hok, hprofiles, hwatches, hnumber (by decide)⟩

end Manager

end Hotspot
