/-
  Hotspot/Proofs/Twins.lean
  =========================
  **What an operation on the profiles does follows from the registry.**

  Two managers with one registry may have come there on different ways: they remember other
  calls, and one may have been started from what the other stored.  On platforms that agree,
  whatever they remember, the same operation has the same result on both and leaves them with one
  registry again (`SameEffect`).

  One operation looks at more: a change of authorization asks whether the package is watched, and
  for the connection.  Under whose user number a package is watched does not count.
-/
import Hotspot.Proofs.Carriers
import Hotspot.Proofs.Durability
import Hotspot.Proofs.Revocation
import Hotspot.Command.StandIn

namespace Hotspot

/-- Two platforms that give the same answers, whatever they remember; the radio and the connection
    are left out, and an application is known by its package. -/
structure Platform.Agree (p p' : Platform) : Prop where
  install : ∀ h h' q, p.install h q = p'.install h' q
  verify : ∀ h h' ca, p.verify h ca = p'.verify h' ca
  resolve : ∀ h h', p.resolve h = p'.resolve h'
  isAuthorized : ∀ h h' uid uid' package,
    p.isAuthorized h { uid, package } = p'.isAuthorized h' { uid := uid', package }

namespace Manager

/-- Two operations have the same result and end with one registry. -/
def SameEffect {α : Type} (x x' : α × Manager) : Prop :=
  x.1 = x'.1 ∧ x.2.registry = x'.2.registry

variable {m m' : Manager} {p p' : Platform}

/-! ### Installing -/

theorem enter_congr (h : p.Agree p') (hr : m.registry = m'.registry) (q : Profile)
    (watch watch' : Bool) :
    (m.enter p q watch).registry = (m'.enter p' q watch').registry := by
  obtain ⟨h₁, he⟩ := enter_registry m p q watch
  obtain ⟨h₂, he'⟩ := enter_registry m' p' q watch'
  rw [he, he', hr, h.resolve h₁ h₂]

theorem profile?_congr (hr : m.registry = m'.registry) (r : InstallRequest) :
    r.profile? m = r.profile? m' := by
  unfold InstallRequest.profile?
  rw [hr]

theorem failure_congr (h : p.Agree p') (hr : m.registry = m'.registry) (r : InstallRequest)
    (g : Gate) : r.failure m p g = r.failure m' p' g := by
  cases g with
  | validation => rfl
  | trust =>
    unfold InstallRequest.failure
    simp only [h.verify (InstallRequest.atTrust m) (InstallRequest.atTrust m')]
  | ownership =>
    unfold InstallRequest.failure
    rw [hr]
  | install =>
    unfold InstallRequest.failure
    simp only [profile?_congr hr r, h.install (r.atInstall m p) (r.atInstall m' p')]

theorem add_congr (h : p.Agree p') (hr : m.registry = m'.registry)
    (config? : Option ProfileConfig) (caller : AppIdentity) (isSuggestion : Bool) :
    SameEffect (m.add p config? caller isSuggestion) (m'.add p' config? caller isSuggestion) := by
  let r : InstallRequest := { config?, caller, isSuggestion }
  rcases r.first_failure m p with ⟨g, e, hbefore, hfailure⟩ | hnone
  · have hadd := add_of_refused m p r g hbefore hfailure
    simp only [failure_congr h hr] at hbefore hfailure
    have hadd' := add_of_refused m' p' r g hbefore hfailure
    rw [hadd, hadd']
    refine ⟨rfl, ?_⟩
    unfold InstallRequest.refused
    rw [hr]
  · obtain ⟨q, hq, hadd⟩ := add_of_accepted m p r hnone
    simp only [failure_congr h hr] at hnone
    obtain ⟨q', hq', hadd'⟩ := add_of_accepted m' p' r hnone
    rw [profile?_congr hr, hq', Option.some.injEq] at hq
    rw [hadd, hadd', hq]
    refine ⟨rfl, enter_congr h ?_ _ _ _⟩
    unfold InstallRequest.accepted
    rw [hr]

theorem importLegacy_congr (h : p.Agree p') (hr : m.registry = m'.registry)
    (entry : Legacy.Entry) :
    SameEffect (m.importLegacy p entry) (m'.importLegacy p' entry) := by
  rw [importLegacy_eq, importLegacy_eq]
  cases entry.toProfileConfig with
  | error reason => exact ⟨rfl, hr⟩
  | ok converted =>
    obtain ⟨config, type⟩ := converted
    dsimp only
    rw [hr]
    refine ⟨rfl, enter_congr h ?_ _ _ _⟩
    rfl

/-! ### Removing -/

theorem remove_congr (hr : m.registry = m'.registry) (uid : UInt32) (privileged : Bool)
    (fqdn : String) :
    SameEffect (m.remove p uid privileged fqdn) (m'.remove p' uid privileged fqdn) := by
  unfold remove
  dsimp only
  rw [increment_registry, increment_registry, hr]
  cases m'.registry.get? fqdn with
  | none => exact ⟨rfl, hr⟩
  | some q =>
    dsimp only
    split
    · exact ⟨rfl, hr⟩
    · refine ⟨rfl, ?_⟩
      rw [increment_registry, releaseOwner_registry, persist_registry, retire_registry,
        increment_registry, releaseOwner_registry, persist_registry, retire_registry]

/-- A change of authorization has the same effect where the package is watched or not watched in
    both, and the same connection is found; it also ends the connection in both or in none. -/
theorem authorizationChanged_congr (h : p.Agree p') (hr : m.registry = m'.registry)
    {package : String} (hwatch : m.isWatching package = m'.isWatching package)
    (hconnected : ∀ uid uid',
      m.connectedAtLoss p uid package = m'.connectedAtLoss p' uid' package) :
    SameEffect (m.authorizationChanged p package) (m'.authorizationChanged p' package) ∧
      (Call.disconnect ∈ callsSince m.history (m.authorizationChanged p package).2.history ↔
        Call.disconnect ∈ callsSince m'.history (m'.authorizationChanged p' package).2.history) := by
  unfold isWatching OrderedMap.contains at hwatch
  rcases m.authorizationChanged_cases p package with ⟨hm, he⟩ | ⟨uid, hm, hcases⟩
  · rcases m'.authorizationChanged_cases p' package with ⟨-, he'⟩ | ⟨uid', hm', -⟩
    · rw [he, he', callsSince_self, callsSince_self]
      exact ⟨⟨rfl, hr⟩, Iff.rfl⟩
    · rw [hm, hm'] at hwatch
      cases hwatch
  · rcases m'.authorizationChanged_cases p' package with ⟨hm', -⟩ | ⟨uid', hm', hcases'⟩
    · rw [hm, hm'] at hwatch
      cases hwatch
    · -- the same answer was given to both, so the mixed cases do not arise
      rw [h.isAuthorized _ m'.history _ uid'] at hcases
      rcases hcases with ⟨hanswer, he⟩ | ⟨hanswer, he⟩ <;>
        rcases hcases' with ⟨hanswer', he'⟩ | ⟨hanswer', he'⟩ <;> rw [hanswer] at hanswer'
      · rw [he, he', callsSince_record, callsSince_record]
        exact ⟨⟨rfl, hr⟩, by simp⟩
      · cases hanswer'
      · cases hanswer'
      · rw [he, he', disconnect_mem_revoke_iff hm, disconnect_mem_revoke_iff hm', hr,
          hconnected uid uid']
        refine ⟨⟨rfl, ?_⟩, Iff.rfl⟩
        rw [revoke_registry, revoke_registry, hr]

/-- Whether a package with a name is watched can be told from the registry. -/
theorem WatchesOwners.isWatching_eq (h : WatchesOwners m) {package : String} (hne : package ≠ "") :
    m.isWatching package = m.registry.hasSavedBy package := by
  rw [Bool.eq_iff_iff]
  exact ⟨h.owner_of_watched package, h.watched_of_owner package hne⟩

/-! ### Flags -/

theorem networkConnected_congr (hr : m.registry = m'.registry) (fqdn : String) :
    SameEffect (m.networkConnected p fqdn) (m'.networkConnected p' fqdn) := by
  unfold networkConnected
  rw [hr]
  cases m'.registry.get? fqdn with
  | none => exact ⟨rfl, hr⟩
  | some q =>
    dsimp only
    split
    · exact ⟨rfl, hr⟩
    · exact ⟨rfl, rfl⟩

theorem enableAutoJoin_congr (hr : m.registry = m'.registry) (fqdn : String) (enabled : Bool) :
    SameEffect (m.enableAutoJoin p fqdn enabled) (m'.enableAutoJoin p' fqdn enabled) := by
  unfold enableAutoJoin
  rw [hr]
  cases m'.registry.get? fqdn with
  | none => exact ⟨rfl, hr⟩
  | some q =>
    dsimp only
    split
    · exact ⟨rfl, hr⟩
    · exact ⟨rfl, rfl⟩

end Manager

end Hotspot
