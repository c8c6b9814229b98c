/-
  Hotspot/Proofs/Readding.lean
  ============================
  **Installing the same configuration again.**

  A request that was accepted is accepted again when the platform goes along with it
  (`accepted_again`): the configuration is as complete as before, and the profile in its place
  belongs to the caller.  The new profile is the old one under another number, and has the same
  network entry once its carrier is asked for.

  The entry of the old profile is compared before that.  A carrier that the platform named for
  the subscriber number is in the old entry and not in the new one yet, so the entry is removed
  though a profile goes on standing for it.  `readding_keeps_entry_unless_carried` says when, and
  `carried_entry_removed_on_readding` that it happens.
-/
import Hotspot.Proofs.Carriers
import Hotspot.Proofs.Frames
import Hotspot.Proofs.NetworkEntries

namespace Hotspot

namespace Profile

/-- Of the network entry, asking for the carrier changes the carrier. -/
theorem descriptor_recarried (q : Profile) (resolve : String → Option Int32) :
    (q.recarried resolve).descriptor =
      { q.descriptor with carrierId := (q.recarried resolve).config.carrierId } := by
  unfold recarried
  split <;> rfl

/-- A carrier that a profile did not have before it was asked for is the platform's. -/
theorem carrierId_recarried {q : Profile} {resolve : String → Option Int32}
    (h : (q.recarried resolve).config.carrierId ≠ q.config.carrierId) :
    ∃ imsi carrierId, q.imsi? = some imsi ∧ resolve imsi = some carrierId ∧
      (q.recarried resolve).config.carrierId = some carrierId := by
  unfold recarried at h ⊢
  cases hcarrier : q.imsi?.bind resolve with
  | none =>
    rw [hcarrier] at h
    exact absurd rfl h
  | some carrierId =>
    obtain ⟨imsi, himsi, hresolve⟩ := Option.bind_eq_some_iff.1 hcarrier
    exact ⟨imsi, carrierId, himsi, hresolve, rfl⟩

theorem recarried_index (q : Profile) (n : UInt64) (resolve : String → Option Int32) :
    { q with index := n }.recarried resolve = { q.recarried resolve with index := n } := by
  have himsi : ({ q with index := n } : Profile).imsi? = q.imsi? := rfl
  unfold recarried
  rw [himsi]
  cases q.imsi?.bind resolve <;> rfl

/-- A profile whose carrier was asked for leaves its network entry to the same profile with another
    number, of which the carrier was not asked for, if the carrier is the one that it had. -/
theorem recarried_leavesEntryTo_iff (q : Profile) (n : UInt64)
    (resolve : String → Option Int32) :
    (q.recarried resolve).leavesEntryTo (some { q with index := n }) = true ↔
      (q.recarried resolve).config.carrierId = q.config.carrierId := by
  have hdescriptor : ({ q with index := n } : Profile).descriptor = q.descriptor := rfl
  rw [leavesEntryTo, Option.map_some, decide_eq_true_eq, Option.some.injEq, hdescriptor]
  constructor
  · intro hsame
    exact (congrArg NetworkDescriptor.carrierId hsame).symm
  · intro hcarrier
    rw [descriptor_recarried, hcarrier]
    rfl

end Profile

/-- A platform that goes along with a request as another one did: it trusts every authority, takes
    every credential, and names the same carriers. -/
structure Platform.GoesAlongWith (p' p : Platform) : Prop where
  trusts : ∀ h ca, p'.verify h ca = none
  installs : ∀ h q, p'.install h q = none
  resolves : ∀ h h', p'.resolve h = p.resolve h'

/-- The profiles of one request differ in their numbers alone. -/
theorem InstallRequest.profile?_eq_renumbered {r : InstallRequest} {m m' : Manager} {e e' : Profile}
    (he : r.profile? m = some e) (he' : r.profile? m' = some e') :
    e' = { e with index := e'.index } := by
  unfold profile? at he he'
  split at he
  · cases he
  · split at he
    · cases he
    · obtain rfl := Option.some.inj he
      simp_all only
      obtain rfl := Option.some.inj he'
      rfl

def Platform.naming (carriers : String → Option Int32) : Platform :=
  { Platform.obliging with resolve := fun _ => carriers }

namespace Manager

variable {m : Manager} {p p' : Platform} {r : InstallRequest}

/-- **What an accepted request does.**  The profile it is for is entered with the carrier of its
    subscriber number.  The entry of the profile it takes the place of is removed unless the new
    one, as it is handed in, has the same. -/
theorem entered_of_accepted (h : ∀ g, r.failure m p g = none) :
    let m' := (m.add p r.config? r.caller r.isSuggestion).2
    ∃ e asked, r.profile? m = some e ∧
      m'.registry.get? e.fqdn = some (e.recarried (p.resolve asked)) ∧
      (callsSince m.history m'.history).filterMap Call.removedKey? =
        ((m.registry.get? e.fqdn).toList.filter fun old => !old.leavesEntryTo (some e)).map
          (·.descriptor.key) := by
  intro m'
  obtain ⟨e, he, hadd⟩ := add_of_accepted m p r h
  have hm' : m' = (r.accepted m p).enter p e e.isSaved := congrArg Prod.snd hadd
  obtain ⟨asked, hget⟩ := get?_enter_self (r.accepted m p) p e e.isSaved
  have htried : m.Does (r.accepted m p) [.install e (p.install (r.atInstall m p) e).isNone] := by
    have hthrough := does_callsThrough (m := m) (p := p) r .install (r.accepted m p) rfl
    rwa [if_pos rfl, he] at hthrough
  obtain ⟨stored, hdoes, -⟩ := htried.enter (p := p) e e.isSaved
  refine ⟨e, asked, he, hm' ▸ hget, ?_⟩
  have hturn : m.Does m' (turnDeeds (some e) _ (m.registry.get? e.fqdn).toList stored) :=
    hm' ▸ hdoes
  have hinstall : [Deed.install e (p.install (r.atInstall m p) e).isNone].filterMap
      Deed.removedKey? = [] := rfl
  rw [hturn.filterMap_eq Call.removedKey?_eq, filterMap_turnDeeds, removedKeys_dismissals,
    hinstall]
  simp [Deed.removedKey?]

/-- A request that was accepted is accepted again, whatever its number: the profile that is in
    the place of the new one is the caller's own. -/
theorem accepted_again (h : ∀ g, r.failure m p g = none) (hp : p'.GoesAlongWith p) (g : Gate) :
    r.failure (m.add p r.config? r.caller r.isSuggestion).2 p' g = none := by
  obtain ⟨config, type, hconfig, hvalid⟩ :=
    (r.failure_validation_eq_none_iff m p).1 (h .validation)
  obtain ⟨e, asked, he, hget, -⟩ := entered_of_accepted h
  obtain ⟨hentered, howner, -⟩ := InstallRequest.of_profile? he
  cases g with
  | validation => exact (r.failure_validation_eq_none_iff _ p').2 ⟨config, type, hconfig, hvalid⟩
  | trust => exact (r.failure_trust_eq_none_iff hconfig).2 fun ca _ _ => hp.trusts _ ca
  | ownership =>
    refine (r.failure_ownership_eq_none_iff hconfig).2 ?_
    rintro ⟨-, old, hold, hother⟩
    obtain rfl : config = e.config := Option.some.inj (hconfig.symm.trans hentered)
    obtain rfl := Option.some.inj (hget.symm.trans hold)
    have hown : (e.recarried (p.resolve asked)).owner = r.caller :=
      (e.sameSubscription_recarried _).owner.trans howner
    exact hother (congrArg AppIdentity.package hown)
  | install =>
    obtain ⟨q, hq⟩ : ∃ q, r.profile? (m.add p r.config? r.caller r.isSuggestion).2 = some q := by
      simp only [InstallRequest.profile?, hconfig, hvalid]
      exact ⟨_, rfl⟩
    exact (r.failure_install_eq_none_iff hq).2 (hp.installs _ q)

/-- **When a configuration that was accepted is handed in again**, the platform going along with it
    as before, it is accepted again and the home domain has the network entry that it had.  The
    entry is removed all the same if its carrier is one that the platform named for the subscriber
    number and the configuration does not name itself, and in no other case. -/
theorem readding_keeps_entry_unless_carried (m : Manager) (p p' : Platform)
    (config : ProfileConfig) (caller : AppIdentity) (isSuggestion : Bool)
    (hfirst : (m.add p (some config) caller isSuggestion).1 = .ok ()) (hp : p'.GoesAlongWith p) :
    let first := (m.add p (some config) caller isSuggestion).2
    let again := first.add p' (some config) caller isSuggestion
    again.1 = .ok () ∧ ∃ q q',
      first.registry.get? config.fqdn = some q ∧
      again.2.registry.get? config.fqdn = some q' ∧
      q'.descriptor = q.descriptor ∧
      (callsSince first.history again.2.history).filterMap Call.removedKey? =
        (if q.config.carrierId = config.carrierId then [] else [q.descriptor.key]) ∧
      (q.config.carrierId ≠ config.carrierId →
        ∃ imsi carrierId, config.sim.bind (·.fullImsi?) = some imsi ∧
          (∀ h, p'.resolve h imsi = some carrierId) ∧
          q.config.carrierId = some carrierId) := by
  intro first again
  let r : InstallRequest := { config? := some config, caller, isSuggestion }
  have haccepted := failure_eq_none_of_add_eq_ok m p r hfirst
  have hagain := accepted_again haccepted hp
  obtain ⟨e, asked, he, hget, -⟩ := entered_of_accepted haccepted
  obtain ⟨e', asked', he', hget', hremoved⟩ := entered_of_accepted hagain
  have hconfig : e.config = config := (Option.some.inj (InstallRequest.of_profile? he).1).symm
  obtain ⟨n, hn⟩ : ∃ n, e' = { e with index := n } :=
    ⟨_, InstallRequest.profile?_eq_renumbered he he'⟩
  have hsucceeds : again.1 = .ok () := by
    obtain ⟨_, -, hadd⟩ := add_of_accepted first p' r hagain
    exact congrArg Prod.fst hadd
  subst hn
  have hdomain : e.fqdn = config.fqdn := congrArg ProfileConfig.fqdn hconfig
  have hdomain' : ({ e with index := n } : Profile).fqdn = config.fqdn := hdomain
  rw [hdomain] at hget
  rw [hdomain', hp.resolves asked' asked, Profile.recarried_index] at hget'
  refine ⟨hsucceeds, _, _, hget, hget', rfl, ?_, ?_⟩
  · -- The new profile is compared as it was handed in, with the carrier of the configuration.
    have hleaves := e.recarried_leavesEntryTo_iff n (p.resolve asked)
    rw [hdomain', hget] at hremoved
    refine hremoved.trans ?_
    rw [← hconfig]
    by_cases hcarrier : (e.recarried (p.resolve asked)).config.carrierId = e.config.carrierId
    · rw [if_pos hcarrier]
      simp [hleaves.2 hcarrier]
    · rw [if_neg hcarrier]
      simp [Bool.eq_false_iff.2 fun h => hcarrier (hleaves.1 h)]
  · intro hcarrier
    rw [← hconfig] at hcarrier ⊢
    obtain ⟨imsi, carrierId, himsi, hresolve, hcarrier⟩ := Profile.carrierId_recarried hcarrier
    exact ⟨imsi, carrierId, himsi, fun h => by rw [hp.resolves h asked, hresolve], hcarrier⟩

def wholeSim : ProfileConfig :=
  { ProfileConfig.ofSim "a.example" with
    credential := some { Credential.ofRealm "realm" with
      caCertificate := some "ca"
      sim := some { imsi := "310260000000001", eapType := .sim } } }

theorem readding_keeps_entry_unless_carried_removed :
    let p := Platform.naming fun _ => some 7
    let first := ((new .default .default).add p (some wholeSim) ⟨10, "shop"⟩ false).2
    let again := first.add p (some wholeSim) ⟨10, "shop"⟩ false
    again.1 = .ok () ∧ (callsSince first.history again.2.history).filterMap Call.removedKey? =
      [NetworkDescriptor.keyFor "a.example" .saved] := by
  dsimp only
  have hagain := readding_keeps_entry_unless_carried (new .default .default)
    (.naming fun _ => some 7) (.naming fun _ => some 7) wholeSim ⟨10, "shop"⟩ false rfl
    ⟨fun _ _ => rfl, fun _ _ => rfl, fun _ _ => rfl⟩
  dsimp only at hagain
  obtain ⟨hok, q, -, hq, -, -, hremoved, -⟩ := hagain
  have hcarried : (((new .default .default).add (.naming fun _ => some 7) (some wholeSim)
      ⟨10, "shop"⟩ false).2.registry.get? wholeSim.fqdn) =
      some ((Profile.new wholeSim 0 ⟨10, "shop"⟩ .saved .sim).withCarrier 7) := by decide
  obtain rfl := Option.some.inj (hq.symm.trans hcarried)
  rw [if_neg (by decide)] at hremoved
  exact ⟨hok, hremoved⟩

/-- **The entry of an installed profile is removed when its configuration is handed in again**,
    after its carrier was asked for.  It is not so that a second request, the same as the first,
    removes no network entry. -/
theorem carried_entry_removed_on_readding :
    ¬ ∀ (steps : List Step) (carriers : String → Option Int32) (config : ProfileConfig)
        (caller : AppIdentity) (isSuggestion : Bool),
      let p := Platform.naming carriers
      let first := ((new .default .default).run steps).add p (some config) caller isSuggestion
      let again := first.2.add p (some config) caller isSuggestion
      first.1 = .ok () → again.1 = .ok () ∧
        (again.2.registry.get? config.fqdn).map (·.descriptor) =
          (first.2.registry.get? config.fqdn).map (·.descriptor) ∧
        (callsSince first.2.history again.2.history).filterMap Call.removedKey? = [] := by
  intro hclaim
  obtain ⟨-, -, hkept⟩ := hclaim [] (fun _ => some 7) wholeSim ⟨10, "shop"⟩ false rfl
  exact absurd hkept (by decide)

end Manager

end Hotspot
