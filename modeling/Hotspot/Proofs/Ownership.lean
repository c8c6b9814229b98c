/-
  Hotspot/Proofs/Ownership.lean
  =============================
  **Nobody but the owner displaces a profile.**

  An application may suggest profiles, remove profiles and lose its rights, and none of this
  touches a profile that another application owns.  Three tests stand in the way, and they do
  not look at the same part of an identity: a suggestion is held against the *package* of the
  profile in its place, a removal against its *user number*, and a change of authorization takes
  what its *package* owns.  What is excluded here is what may displace a profile by design: a
  profile installed for the user, an import, a privileged removal and a restored state.

  One operation of others leaves the profile installed (`kept_by_others`).  Then the operation
  does not retire it, and since every other profile has another number and another home domain,
  neither its credential nor its network entry goes either.
-/
import Hotspot.Proofs.Custody
import Hotspot.Proofs.Frames
import Hotspot.Proofs.NetworkEntries

namespace Hotspot

/-- An operation in which others than the owner have their say: they suggest profiles, they
    remove profiles without a privilege, their packages lose rights, or it is none of these
    matters. -/
def Operation.IsByOthers (owner : AppIdentity) : Operation → Prop
  | .add _ caller isSuggestion => isSuggestion = true ∧ caller.package ≠ owner.package
  | .importLegacy _ => False
  | .remove uid privileged _ => privileged = false ∧ uid ≠ owner.uid
  | .authorizationChanged package => package ≠ owner.package
  | .handle (.authorizationChanged package) => package ≠ owner.package
  | .restore _ => False
  | _ => True

theorem Operation.IsByOthers.ne_restore {owner : AppIdentity} {op : Operation}
    (h : op.IsByOthers owner) : ∀ s, op ≠ .restore s := by
  rintro s rfl
  exact h

/-- A call that leaves the credential and the network entry of a profile in place. -/
def Call.Spares (q : Profile) : Call → Prop
  | .uninstall u _ => u.credentialAlias ≠ q.credentialAlias
  | .removeDescriptor key => key ≠ q.descriptor.key
  | _ => True

theorem Call.Spares.congr {c : Call} {q q' : Profile} (h : c.Spares q)
    (hsame : q'.SameInstallation q) : c.Spares q' := by
  cases c with
  | uninstall u failure =>
    have halias : q.credentialAlias = q'.credentialAlias := Profile.alias_eq_iff.2 hsame.index
    rw [Spares, ← halias]
    exact h
  | removeDescriptor key =>
    rw [Spares, ← hsame.key]
    exact h
  | _ => trivial

namespace Manager

variable {m : Manager} {p : Platform} {op : Operation} {q : Profile} {fqdn : String}

/-! ### Other domains -/

theorem get?_refreshCarrier_of_ne {fqdn' : String} (h : fqdn ≠ fqdn') :
    (m.refreshCarrier p fqdn').registry.get? fqdn = m.registry.get? fqdn := by
  rcases m.refreshCarrier_cases p fqdn' with he | ⟨imsi, answer, he⟩ | ⟨imsi, carrierId, he⟩ <;>
    rw [he]
  · rfl
  · rw [persist_registry, Registry.get?_modify, if_neg h]

/-- Entering a profile changes nothing under other domains. -/
theorem get?_enter_of_ne (e : Profile) (watch : Bool) (h : fqdn ≠ e.fqdn) :
    (m.enter p e watch).registry.get? fqdn = m.registry.get? fqdn := by
  have hcommit : (m.commit p e).registry.get? fqdn = m.registry.get? fqdn := by
    unfold commit
    dsimp only
    rw [get?_refreshCarrier_of_ne h, releaseReplaced_registry, persist_registry,
      retireReplaced_registry, Registry.get?_insert, if_neg h]
  unfold enter
  rw [increment_registry]
  split
  · rw [startWatching_registry, hcommit]
  · exact hcommit

/-! ### One operation of others -/

/-- A suggestion of another package passes the gates only for another domain. -/
theorem kept_by_suggestion {r : InstallRequest} (hget : m.registry.get? q.fqdn = some q)
    (hsuggestion : r.isSuggestion = true) (hpackage : r.caller.package ≠ q.owner.package) :
    (m.add p r.config? r.caller r.isSuggestion).2.registry.get? q.fqdn = some q := by
  apply request_induction (I := fun m' => m'.registry.get? q.fqdn = some q) r
  · intro g
    unfold InstallRequest.refused
    split <;> exact hget
  · intro e he hpassed _
    obtain ⟨hconfig, -, -⟩ := InstallRequest.of_profile? he
    have hne : q.fqdn ≠ e.fqdn := by
      intro hfqdn
      refine (r.failure_ownership_eq_none_iff hconfig).1 (hpassed .ownership) ⟨hsuggestion, q, ?_, ?_⟩
      · rw [← hget, hfqdn]
        rfl
      · exact Ne.symm hpackage
    rw [get?_enter_of_ne e _ hne]
    exact hget

theorem kept_by_removal {uid : UInt32} {fqdn : String} (hget : m.registry.get? q.fqdn = some q)
    (huid : uid ≠ q.owner.uid) :
    (m.remove p uid false fqdn).2.registry.get? q.fqdn = some q := by
  rcases m.remove_cases p uid false fqdn with ⟨e, he⟩ | ⟨gone, hgone, hallowed, he⟩ <;> rw [he]
  · exact hget
  · rw [increment_registry, releaseOwner_registry, persist_registry, retire_registry,
      Registry.get?_erase, if_neg]
    · exact hget
    · rintro rfl
      rw [hget, Option.some.injEq] at hgone
      subst hgone
      simp [Ne.symm huid] at hallowed

theorem kept_by_authorizationChanged {package : String} (hget : m.registry.get? q.fqdn = some q)
    (hpackage : package ≠ q.owner.package) :
    (m.authorizationChanged p package).2.registry.get? q.fqdn = some q := by
  rcases m.authorizationChanged_cases p package with ⟨-, he⟩ | ⟨uid, -, ⟨-, he⟩ | ⟨-, he⟩⟩ <;>
    rw [he]
  · exact hget
  · exact hget
  · have hother : q.isSavedBy package = false :=
      Bool.eq_false_iff.2 fun hc => hpackage (Profile.isSavedBy_iff.1 hc).2.symm
    rw [revoke_registry, Registry.get?_eraseSavedBy, hget, Option.filter_some, hother]
    rfl

/-- **An operation of others keeps a profile in its place**, with all that the application that
    owns it has put there. -/
theorem kept_by_others (hget : m.registry.get? q.fqdn = some q)
    (hop : op.IsByOthers q.owner) :
    ∃ q', (m.perform p op).2.registry.get? q.fqdn = some q' ∧ q.SameSubscription q' := by
  apply operation_induction (I := fun m' =>
    ∃ q', m'.registry.get? q.fqdn = some q' ∧ q.SameSubscription q')
  · rintro m₁ m₂ hq ⟨q', hget', hsame⟩
    exact ⟨q', hq.registry ▸ hget', hsame⟩
  · rintro m₁ fqdn f hf ⟨q', hget', hsame⟩
    rw [persist_registry, Registry.get?_modify, hget', Option.map_some]
    by_cases hfqdn : q.fqdn = fqdn
    · exact ⟨f q', if_pos hfqdn, hsame.trans (hf q')⟩
    · exact ⟨q', if_neg hfqdn, hsame⟩
  · rintro config? caller isSuggestion rfl
    exact ⟨q, kept_by_suggestion (r := { config?, caller, isSuggestion }) hget hop.1 hop.2,
      .refl q⟩
  · rintro entry rfl
    exact hop.elim
  · rintro uid privileged fqdn rfl
    obtain ⟨rfl, huid⟩ := hop
    exact ⟨q, kept_by_removal hget huid, .refl q⟩
  · rintro package (rfl | rfl)
    · exact ⟨q, kept_by_authorizationChanged hget hop, .refl q⟩
    · exact ⟨q, kept_by_authorizationChanged hget hop, .refl q⟩
  · rintro s rfl
    exact hop.elim
  · exact ⟨q, hget, .refl q⟩

/-- A profile that an operation of others enters is for another domain: it has a new number. -/
theorem not_retired_by_others (hr : m.registry.Keyed) (hnumbered : m.registry.Numbered)
    (hget : m.registry.get? q.fqdn = some q) (hop : op.IsByOthers q.owner) :
    q ∉ m.retired p op := by
  obtain ⟨q', hget', hsame⟩ := kept_by_others (p := p) hget hop
  obtain ⟨tried, stored, turn, -⟩ := turn_retires (p := p) hr hop.ne_restore
  intro hretired
  rcases of_decide_eq_true (List.mem_filter.1 hretired).2 with hnone | hreplaced
  · rw [hget'] at hnone
    cases hnone
  · obtain ⟨e, he, hfqdn⟩ := Option.map_eq_some_iff.1 hreplaced
    obtain ⟨e', hget'', hentered⟩ := turn.entered_stays hr he
    rw [hfqdn, hget', Option.some.injEq] at hget''
    have hindex : q.index = m.registry.nextIndex := by
      rw [← turn.index_of_entered he, ← hentered.index, ← hget'', hsame.index]
    exact UInt64.ne_of_lt (hnumbered _ _ hget) hindex

/-- **An operation of others spares the credential and the network entry.** -/
theorem spared_by_others (hr : m.registry.Keyed) (hnumbered : m.registry.Numbered)
    (hdistinct : m.registry.Distinct) (hget : m.registry.get? q.fqdn = some q)
    (hop : op.IsByOthers q.owner) :
    ∀ c ∈ callsSince m.history (m.perform p op).2.history, c.Spares q := by
  have hrestore := hop.ne_restore
  have hkept := not_retired_by_others (p := p) hr hnumbered hget hop
  intro c hc
  cases c with
  | uninstall u failure =>
    have hretired : u ∈ m.retired p op := by
      rw [← uninstalled_perform hr hrestore]
      exact List.mem_filterMap.2 ⟨_, hc, rfl⟩
    have hget' := hr.get?_of_mem_values (List.mem_filter.1 hretired).1
    intro halias
    have hfqdn := hdistinct _ _ _ _ hget' hget (Profile.alias_eq_iff.1 halias)
    rw [hfqdn, hget, Option.some.injEq] at hget'
    exact hkept (hget' ▸ hretired)
  | removeDescriptor key =>
    rintro rfl
    have hmem : q ∈ m.registry.profiles.values := Registry.mem_values_iff.2 ⟨_, hget⟩
    exact ((tidiesEntries_perform hr hrestore).left_alone q hmem hkept).2 hc
  | _ => trivial

/-! ### Runs -/

theorem spared_in_run {steps : List Step} (hlast : Along NumbersLast m steps)
    (hr : m.registry.Keyed) (hnumbered : m.registry.Numbered) (hdistinct : m.registry.Distinct)
    (hget : m.registry.get? q.fqdn = some q) (hsteps : ∀ s ∈ steps, s.2.IsByOthers q.owner) :
    (∃ q', (m.run steps).registry.get? q.fqdn = some q' ∧ q.SameSubscription q') ∧
      ∀ c ∈ callsSince m.history (m.run steps).history, c.Spares q := by
  induction steps generalizing m q with
  | nil =>
    refine ⟨⟨q, hget, .refl q⟩, fun c hc => ?_⟩
    have hnone : callsSince m.history (m.run []).history = [] := callsSince_self _
    rw [hnone] at hc
    cases hc
  | cons s rest ih =>
    obtain ⟨p, op⟩ := s
    have hop : op.IsByOthers q.owner := hsteps _ List.mem_cons_self
    obtain ⟨q₁, hget₁, hsame₁⟩ := kept_by_others (p := p) hget hop
    obtain ⟨tried, stored, turn, -⟩ := turn_retires (p := p) hr hop.ne_restore
    have hrest : ∀ s ∈ rest, s.2.IsByOthers q₁.owner := by
      intro s hs
      rw [hsame₁.owner]
      exact hsteps s (List.mem_cons_of_mem _ hs)
    obtain ⟨⟨q', hget', hsame'⟩, hspared⟩ := ih hlast.2 (keyed_perform hr op)
      (numbered_perform op hlast.1 hnumbered) (turn.distinct hr hnumbered hdistinct)
      (hsame₁.fqdn ▸ hget₁) hrest
    refine ⟨⟨q', hsame₁.fqdn ▸ hget', hsame₁.trans hsame'⟩, fun c hc => ?_⟩
    have hcalls : callsSince m.history (m.run ((p, op) :: rest)).history =
        callsSince m.history (m.perform p op).2.history ++
          callsSince (m.perform p op).2.history ((m.perform p op).2.run rest).history :=
      callsSince_trans (history_run m [(p, op)]) (history_run _ rest)
    rw [hcalls] at hc
    rcases List.mem_append.1 hc with hc | hc
    · exact spared_by_others hr hnumbered hdistinct hget hop c hc
    · exact (hspared c hc).congr hsame₁.toSameInstallation

/-- **Others do not displace a profile.**  A profile is installed in a state in which no two
    profiles have one number.  Whatever others do from then on, in a run that does not count
    past the last number, the profile stays installed, the same but for its carrier and the
    flags of its life; its credential is not taken out of the secure store, and its network
    entry not removed. -/
theorem others_do_not_displace {settings : Settings} {matchers : Matchers}
    {before steps : List Step} {q : Profile} {fqdn : String}
    (hlast : Along NumbersLast (new settings matchers) (before ++ steps))
    (hdistinct : ((new settings matchers).run before).registry.Distinct)
    (hget : ((new settings matchers).run before).registry.get? fqdn = some q)
    (hsteps : ∀ s ∈ steps, s.2.IsByOthers q.owner) :
    let m := (new settings matchers).run before
    let m' := m.run steps
    (∃ q', m'.registry.get? q.fqdn = some q' ∧ q'.index = q.index ∧ q'.owner = q.owner ∧
      q'.source = q.source ∧ q'.credentialType = q.credentialType ∧
      { q'.config with carrierId := q.config.carrierId } = q.config) ∧
    (∀ u failure, .uninstall u failure ∈ callsSince m.history m'.history →
      u.credentialAlias ≠ q.credentialAlias) ∧
    .removeDescriptor q.descriptor.key ∉ callsSince m.history m'.history := by
  intro m m'
  obtain ⟨hbefore, hafter⟩ := Along.append_iff.1 hlast
  have hr : m.registry.Keyed := keyed_run before Registry.keyed_empty
  have hnumbered : m.registry.Numbered := numbered_run hbefore Registry.numbered_empty
  have hget' : m.registry.get? q.fqdn = some q := (hr fqdn q hget).symm ▸ hget
  obtain ⟨⟨q', hkept, hsame⟩, hspared⟩ := spared_in_run hafter hr hnumbered hdistinct hget' hsteps
  refine ⟨⟨q', hkept, hsame.index, hsame.owner, hsame.source, hsame.credentialType, hsame.config⟩,
    ?_, ?_⟩
  · intro u failure hc
    exact hspared _ hc
  · intro hc
    exact hspared _ hc rfl

/-- An application suggests a profile, and another one tries to replace it and to remove it, next
    to profiles of its own; then the other one loses its rights. -/
def shopSuggests : List Step :=
  [(.obliging, .add (some (.ofSim "a.example")) ⟨10, "shop"⟩ true)]

def mailInterferes : List Step :=
  [(.obliging, .add (some (.ofSim "a.example")) ⟨11, "mail"⟩ true),
    (.obliging, .add (some (.ofSim "b.example")) ⟨11, "mail"⟩ true),
    (.obliging, .remove 11 false "a.example"),
    (.obliging, .remove 11 false "b.example"),
    (.failing none, .authorizationChanged "mail"),
    (.obliging, .networkConnected "a.example")]

theorem others_do_not_displace_suggestion :
    let m := (new .default .default).run shopSuggests
    let m' := m.run mailInterferes
    ∃ q, m.registry.get? "a.example" = some q ∧
      (∃ q', m'.registry.get? q.fqdn = some q' ∧ q'.index = q.index ∧ q'.owner = q.owner ∧
        q'.source = q.source ∧ q'.credentialType = q.credentialType ∧
        { q'.config with carrierId := q.config.carrierId } = q.config) ∧
      .removeDescriptor q.descriptor.key ∉ callsSince m.history m'.history := by
  intro m m'
  have hlast : Along NumbersLast (new .default .default) (shopSuggests ++ mailInterferes) :=
    ⟨fun h => absurd h (by decide), fun h => absurd h (by decide), fun h => absurd h (by decide),
      fun h => absurd h (by decide), fun h => absurd h (by decide), fun h => absurd h (by decide),
      fun h => absurd h (by decide), trivial⟩
  have hdistinct : m.registry.Distinct := by
    apply distinct_run (Along.append_iff.1 hlast).1 _ Registry.keyed_empty
      Registry.numbered_empty Registry.distinct_empty
    intro p state h
    simp [shopSuggests] at h
  let q := Profile.new (.ofSim "a.example") 0 ⟨10, "shop"⟩ .suggested .sim
  have hget : m.registry.get? "a.example" = some q := by decide
  have hsteps : ∀ s ∈ mailInterferes, s.2.IsByOthers q.owner := by
    simp [mailInterferes, Operation.IsByOthers, q, Profile.new]
  obtain ⟨hkept, -, hentry⟩ := others_do_not_displace hlast hdistinct hget hsteps
  exact ⟨q, hget, hkept, hentry⟩

end Manager

end Hotspot
