/-
  Hotspot/Proofs/Immutability.lean
  ================================
  **What an operation may change of an installed profile.**

  A profile that stays in its place through an operation is the same installation with the same
  configuration.  Three things about it may change, each in one way: a first connection is noted,
  joining without asking is allowed or forbidden, and the carrier becomes what the platform names
  for the profile's own subscriber number (`KeptThrough`).  Anything else under a domain is
  another profile: one that a request to install or an import for this very domain brought in,
  under a new number (`ReplacedThrough`).

  The frame is told by what an operation has a say about (`Concerns`): the domain it names, the
  domains whose profile the package in question owns, or the domains of which a scan found home
  networks.  Under all other domains nothing changes.  Both are read off one account of what an
  operation does under a domain (`Changes`).
-/
import Hotspot.Proofs.Carriers
import Hotspot.Proofs.Ownership

namespace Hotspot

namespace Manager

/-! ### Kept and replaced -/

variable {m : Manager} {p : Platform} {op : Operation} {domain : String} {q q' : Profile}

/-- `q'` is the profile `q` of a domain after an operation that kept it: the same installation
    and configuration, with what the operation may have changed of it. -/
structure KeptThrough (m : Manager) (p : Platform) (op : Operation) (domain : String)
    (q q' : Profile) : Prop extends q.SameSubscription q' where
  connected : q'.hasEverConnected = q.hasEverConnected ∨
    (q.hasEverConnected = false ∧ q'.hasEverConnected = true ∧
      (op = .networkConnected domain ∨ op = .handle (.networkConnected domain)))
  joins : q'.autoJoin = q.autoJoin ∨ op = .enableAutoJoin domain q'.autoJoin
  carrier : q'.config.carrierId = q.config.carrierId ∨
    ∃ imsi carrierId, q.config.sim.bind (·.fullImsi?) = some imsi ∧
      .resolve imsi (some carrierId) ∈ callsSince m.history (m.perform p op).2.history ∧
      q'.config.carrierId = some carrierId

/-- `q'` is a new profile of a domain: the operation is a request to install, or an import, for
    this domain; it was accepted, and the number is none that was given before. -/
structure ReplacedThrough (m : Manager) (p : Platform) (op : Operation) (domain : String)
    (q' : Profile) : Prop where
  accepted : (m.perform p op).1 = .done
  named : (∃ config caller isSuggestion, op = .add (some config) caller isSuggestion ∧
      config.fqdn = domain) ∨
    ∃ entry, op = .importLegacy entry ∧ entry.fqdn = domain
  index : m.registry.nextIndex ≤ q'.index

namespace KeptThrough

theorem refl (m : Manager) (p : Platform) (op : Operation) (domain : String) (q : Profile) :
    m.KeptThrough p op domain q q where
  toSameSubscription := .refl q
  connected := Or.inl rfl
  joins := Or.inl rfl
  carrier := Or.inl rfl

theorem of_recarriedBy {calls : List Call}
    (hcalls : (m.perform p op).2.history = calls ++ m.history) (h : q.RecarriedBy calls q') :
    m.KeptThrough p op domain q q' := by
  rcases h with rfl | ⟨imsi, carrierId, himsi, hcall, rfl⟩
  · exact refl ..
  · refine ⟨.withCarrier q carrierId, Or.inl rfl, Or.inl rfl, Or.inr ?_⟩
    refine ⟨imsi, carrierId, himsi, ?_, rfl⟩
    rw [hcalls, callsSince_append]
    exact List.mem_reverse.2 hcall

end KeptThrough

/-! ### One operation under one domain -/

/-- The domain of an entered profile has that profile, every other domain what it had. -/
theorem get?_enter (m : Manager) (p : Platform) (e : Profile) (watch : Bool) (domain : String) :
    (domain ≠ e.fqdn ∧ (m.enter p e watch).registry.get? domain = m.registry.get? domain) ∨
    (domain = e.fqdn ∧ ∃ q', (m.enter p e watch).registry.get? domain = some q' ∧
      e.SameInstallation q') := by
  by_cases hdomain : domain = e.fqdn
  · refine Or.inr ⟨hdomain, (stays_enter m p e watch).kept domain e ?_⟩
    rw [Registry.get?_insert, if_pos hdomain]
  · exact Or.inl ⟨hdomain, get?_enter_of_ne e watch hdomain⟩

/-- A request to install leaves a domain alone, or it is accepted and for this domain. -/
theorem get?_add (m : Manager) (p : Platform) (r : InstallRequest) (domain : String) :
    (m.add p r.config? r.caller r.isSuggestion).2.registry.get? domain =
        m.registry.get? domain ∨
    ((m.add p r.config? r.caller r.isSuggestion).1 = .ok () ∧
      (∃ config, r.config? = some config ∧ config.fqdn = domain) ∧
      ∃ q', (m.add p r.config? r.caller r.isSuggestion).2.registry.get? domain = some q' ∧
        q'.index = m.registry.nextIndex) := by
  rcases r.first_failure m p with ⟨g, e, hbefore, hfailure⟩ | hnone
  · rw [add_of_refused m p r g hbefore hfailure]
    refine Or.inl ?_
    unfold InstallRequest.refused
    split <;> rfl
  · obtain ⟨e, he, hadd⟩ := add_of_accepted m p r hnone
    rw [hadd]
    rcases get?_enter (r.accepted m p) p e e.isSaved domain with
      ⟨-, hget⟩ | ⟨hdomain, q', hget, hsame⟩
    · exact Or.inl hget
    · obtain ⟨hconfig, -, -⟩ := InstallRequest.of_profile? he
      exact Or.inr ⟨rfl, ⟨e.config, hconfig, hdomain.symm⟩, q', hget,
        hsame.index.trans (index_of_profile? he)⟩

theorem get?_importLegacy (m : Manager) (p : Platform) (entry : Legacy.Entry)
    (domain : String) :
    (m.importLegacy p entry).2.registry.get? domain = m.registry.get? domain ∨
    ((m.importLegacy p entry).1 = .ok () ∧ entry.fqdn = domain ∧
      ∃ q', (m.importLegacy p entry).2.registry.get? domain = some q' ∧
        q'.index = m.registry.nextIndex) := by
  rw [importLegacy_eq]
  cases hentry : entry.toProfileConfig with
  | error reason => exact Or.inl rfl
  | ok converted =>
    obtain ⟨config, type⟩ := converted
    let e := Profile.new config m.registry.nextIndex entry.creator .saved type
    rcases get?_enter { m.increment .installAttempted with registry := m.registry.takeIndex } p e
      (e.owner.package ≠ "") domain with ⟨-, hget⟩ | ⟨hdomain, q', hget, hsame⟩
    · exact Or.inl hget
    · have hfqdn : e.fqdn = entry.fqdn := Legacy.Entry.fqdn_of_toProfileConfig hentry
      exact Or.inr ⟨rfl, hfqdn.symm.trans hdomain.symm, q', hget, hsame.index⟩

theorem get?_remove (m : Manager) (p : Platform) (uid : UInt32) (privileged : Bool)
    (fqdn domain : String) :
    (m.remove p uid privileged fqdn).2.registry.get? domain = m.registry.get? domain ∨
    ((m.remove p uid privileged fqdn).2.registry.get? domain = none ∧ fqdn = domain) := by
  rcases m.remove_cases p uid privileged fqdn with ⟨e, he⟩ | ⟨gone, -, -, he⟩ <;> rw [he]
  · exact Or.inl rfl
  · rw [increment_registry, releaseOwner_registry, persist_registry, retire_registry,
      Registry.get?_erase]
    by_cases hdomain : domain = fqdn
    · exact Or.inr ⟨if_pos hdomain, hdomain.symm⟩
    · exact Or.inl (if_neg hdomain)

theorem get?_authorizationChanged (m : Manager) (p : Platform) (package domain : String) :
    (m.authorizationChanged p package).2.registry.get? domain = m.registry.get? domain ∨
    ((m.authorizationChanged p package).2.registry.get? domain = none ∧
      ∃ q, m.registry.get? domain = some q ∧ q.owner.package = package) := by
  rcases m.authorizationChanged_cases p package with ⟨-, he⟩ | ⟨uid, -, ⟨-, he⟩ | ⟨-, he⟩⟩ <;>
    rw [he]
  · exact Or.inl rfl
  · exact Or.inl rfl
  · rw [revoke_registry, Registry.get?_eraseSavedBy]
    cases hq : m.registry.get? domain with
    | none => exact Or.inl rfl
    | some q =>
      cases hsaved : q.isSavedBy package with
      | true =>
        refine Or.inr ⟨?_, q, rfl, (Profile.isSavedBy_iff.1 hsaved).2⟩
        rw [Option.filter_some, hsaved]
        rfl
      | false =>
        refine Or.inl ?_
        rw [Option.filter_some, hsaved]
        rfl

/-- Only the first connection is noted, and only under the domain of the network. -/
theorem get?_networkConnected (m : Manager) (p : Platform) (fqdn domain : String) :
    (m.networkConnected p fqdn).2.registry.get? domain = m.registry.get? domain ∨
    (fqdn = domain ∧ ∃ q, m.registry.get? domain = some q ∧ q.hasEverConnected = false ∧
      (m.networkConnected p fqdn).2.registry.get? domain =
        some { q with hasEverConnected := true }) := by
  unfold networkConnected
  cases hget : m.registry.get? fqdn with
  | none => exact Or.inl rfl
  | some q =>
    by_cases hconnected : q.hasEverConnected = true
    · exact Or.inl (by simp only [if_pos hconnected])
    · simp only [if_neg hconnected, persist_registry, Registry.get?_modify]
      by_cases hdomain : domain = fqdn
      · subst hdomain
        rw [if_pos rfl, hget, Option.map_some]
        exact Or.inr ⟨rfl, q, rfl, Bool.eq_false_iff.2 hconnected, rfl⟩
      · exact Or.inl (if_neg hdomain)

theorem get?_enableAutoJoin (m : Manager) (p : Platform) (fqdn : String) (enabled : Bool)
    (domain : String) :
    (m.enableAutoJoin p fqdn enabled).2.registry.get? domain = m.registry.get? domain ∨
    (fqdn = domain ∧ ∃ q, m.registry.get? domain = some q ∧
      (m.enableAutoJoin p fqdn enabled).2.registry.get? domain =
        some { q with autoJoin := enabled }) := by
  unfold enableAutoJoin
  cases hget : m.registry.get? fqdn with
  | none => exact Or.inl rfl
  | some q =>
    by_cases hjoins : q.autoJoin = enabled
    · exact Or.inl (by simp only [if_pos hjoins])
    · simp only [if_neg hjoins, persist_registry, Registry.get?_modify]
      by_cases hdomain : domain = fqdn
      · subst hdomain
        rw [if_pos rfl, hget, Option.map_some]
        exact Or.inr ⟨rfl, q, rfl, rfl⟩
      · exact Or.inl (if_neg hdomain)

/-! ### Every operation -/

/-- An operation has a say about a domain: it names the domain, the package that it is about owns
    the profile there, or it is a scan that finds home networks of the domain.  A restored state
    is about all domains. -/
def Concerns (m : Manager) (p : Platform) (domain : String) : Operation → Prop
  | .add config? _ _ => ∃ config, config? = some config ∧ config.fqdn = domain
  | .importLegacy entry => entry.fqdn = domain
  | .remove _ _ fqdn => fqdn = domain
  | .matchAll aps => (m.matchAll p aps).1.group domain .home ≠ []
  | .authorizationChanged package =>
    ∃ q, m.registry.get? domain = some q ∧ q.owner.package = package
  | .networkConnected fqdn => fqdn = domain
  | .enableAutoJoin fqdn _ => fqdn = domain
  | .restore _ => True
  | .handle (.authorizationChanged package) =>
    ∃ q, m.registry.get? domain = some q ∧ q.owner.package = package
  | .handle (.networkConnected fqdn) => fqdn = domain
  | _ => False

/-- An operation leaves a domain as it was, or it has a say about it; then what is there
    afterwards is what was there before, kept, or a new profile. -/
def Changes (m : Manager) (p : Platform) (op : Operation) (domain : String) : Prop :=
  (m.perform p op).2.registry.get? domain = m.registry.get? domain ∨
  (m.Concerns p domain op ∧ ∀ q', (m.perform p op).2.registry.get? domain = some q' →
    (∃ q, m.registry.get? domain = some q ∧ m.KeptThrough p op domain q q') ∨
      m.ReplacedThrough p op domain q')

namespace Changes

variable (m : Manager) (p : Platform) (domain : String)

theorem quiet (h : Quiet m (m.perform p op).2) : m.Changes p op domain :=
  Or.inl (congrArg (·.get? domain) h.registry)

/-- Nothing, or the profile of the domain is gone. -/
theorem gone (h : (m.perform p op).2.registry.get? domain = m.registry.get? domain ∨
    ((m.perform p op).2.registry.get? domain = none ∧ m.Concerns p domain op)) :
    m.Changes p op domain := by
  refine h.imp id fun hgone => ⟨hgone.2, fun q' hq' => ?_⟩
  rw [hgone.1] at hq'
  cases hq'

theorem add (config? : Option ProfileConfig) (caller : AppIdentity) (isSuggestion : Bool) :
    m.Changes p (.add config? caller isSuggestion) domain := by
  refine (get?_add m p { config?, caller, isSuggestion } domain).imp id ?_
  rintro ⟨hok, ⟨config, hconfig, hfqdn⟩, q₁, hq₁, hindex⟩
  refine ⟨⟨config, hconfig, hfqdn⟩, fun q' hq' => Or.inr ⟨congrArg Reply.ofResult hok, ?_, ?_⟩⟩
  · exact Or.inl ⟨config, caller, isSuggestion, by rw [← hconfig], hfqdn⟩
  · rw [← Option.some.inj (hq₁.symm.trans hq'), hindex]
    exact UInt64.le_refl _

theorem importLegacy (entry : Legacy.Entry) : m.Changes p (.importLegacy entry) domain := by
  refine (get?_importLegacy m p entry domain).imp id ?_
  rintro ⟨hok, hfqdn, q₁, hq₁, hindex⟩
  refine ⟨hfqdn, fun q' hq' => Or.inr ⟨congrArg Reply.ofResult hok, ?_, ?_⟩⟩
  · exact Or.inr ⟨entry, rfl, hfqdn⟩
  · rw [← Option.some.inj (hq₁.symm.trans hq'), hindex]
    exact UInt64.le_refl _

theorem matchAll (aps : List AccessPoint) : m.Changes p (.matchAll aps) domain := by
  by_cases hhome : (m.matchAll p aps).1.group domain .home = []
  · exact Or.inl (get?_matchAll m p aps domain hhome)
  · refine Or.inr ⟨hhome, fun q' hq' => Or.inl ?_⟩
    obtain ⟨calls, hcalls, horigin⟩ := recarries_matchAll m p aps
    obtain ⟨q, hq, hrecarried⟩ := horigin domain q' hq'
    exact ⟨q, hq, .of_recarriedBy hcalls hrecarried⟩

/-- Both ways of reporting a connection come to the same. -/
theorem networkConnected {fqdn : String}
    (hop : op = .networkConnected fqdn ∨ op = .handle (.networkConnected fqdn)) :
    m.Changes p op domain := by
  have hperform : (m.perform p op).2 = (m.networkConnected p fqdn).2 := by
    rcases hop with rfl | rfl <;> rfl
  have hconcerns : fqdn = domain → m.Concerns p domain op := by
    rcases hop with rfl | rfl <;> exact id
  unfold Changes
  rw [hperform]
  refine (get?_networkConnected m p fqdn domain).imp id ?_
  rintro ⟨rfl, q, hq, hbefore, hafter⟩
  refine ⟨hconcerns rfl, fun q' hq' => Or.inl ⟨q, hq, ?_⟩⟩
  obtain rfl := Option.some.inj (hafter.symm.trans hq')
  exact ⟨.hasEverConnected q true, Or.inr ⟨hbefore, rfl, hop⟩, Or.inl rfl, Or.inl rfl⟩

theorem enableAutoJoin (fqdn : String) (enabled : Bool) :
    m.Changes p (.enableAutoJoin fqdn enabled) domain := by
  refine (get?_enableAutoJoin m p fqdn enabled domain).imp id ?_
  rintro ⟨rfl, q, hq, hafter⟩
  refine ⟨rfl, fun q' hq' => Or.inl ⟨q, hq, ?_⟩⟩
  obtain rfl := Option.some.inj (hafter.symm.trans hq')
  exact ⟨.autoJoin q enabled, Or.inl rfl, Or.inr rfl, Or.inl rfl⟩

/-- **What an operation other than restoring does under a domain.** -/
theorem perform (hop : ∀ s, op ≠ .restore s) : m.Changes p op domain := by
  cases op with
  | add config? caller isSuggestion => exact add m p domain config? caller isSuggestion
  | importLegacy entry => exact importLegacy m p domain entry
  | remove uid privileged fqdn => exact gone m p domain (get?_remove m p uid privileged fqdn domain)
  | matchOne ap => exact quiet m p domain (.matchOne m p ap)
  | matchAll aps => exact matchAll m p domain aps
  | sweep => exact quiet m p domain (.sweep m p)
  | fetchResult bssid es => exact quiet m p domain (.fetchResult m p bssid es)
  | fetchFailure bssid => exact quiet m p domain (.fetchFailure m bssid)
  | authorizationChanged package =>
    exact gone m p domain (get?_authorizationChanged m p package domain)
  | networkConnected fqdn => exact networkConnected m p domain (Or.inl rfl)
  | publishMetrics => exact quiet m p domain (.publishMetrics m)
  | enableAutoJoin fqdn enabled => exact enableAutoJoin m p domain fqdn enabled
  | restore s => exact absurd rfl (hop s)
  | handle event =>
    cases event with
    | fetchResult bssid es => exact quiet m p domain (.fetchResult m p bssid es)
    | fetchFailure bssid => exact quiet m p domain (.fetchFailure m bssid)
    | authorizationChanged package =>
      exact gone m p domain (get?_authorizationChanged m p package domain)
    | networkConnected fqdn => exact networkConnected m p domain (Or.inr rfl)
  | list uid privileged => exact Or.inl rfl
  | cachedMetadata ap => exact Or.inl rfl
  | metrics => exact Or.inl rfl
  | descriptors fqdns => exact Or.inl rfl
  | persistedState => exact Or.inl rfl
  | isWatching package => exact Or.inl rfl

end Changes

/-- **Profiles do not change under the hands of an operation.**  In any state and with any
    platform, an operation other than restoring leaves a domain that has a profile before and
    after with the same profile, in which nothing but the noted connection, the permission to
    join and the carrier can differ, each as `KeptThrough` says; or the operation was accepted as
    an installation or import for this very domain, and the profile is a new one.  Under a domain
    that the operation has no say about nothing changes at all. -/
theorem profiles_are_immutable (m : Manager) (p : Platform) {op : Operation}
    (hop : ∀ s, op ≠ .restore s) :
    let m' := (m.perform p op).2
    (∀ domain q q', m.registry.get? domain = some q → m'.registry.get? domain = some q' →
      m.KeptThrough p op domain q q' ∨ m.ReplacedThrough p op domain q') ∧
    ∀ domain, ¬ m.Concerns p domain op → m'.registry.get? domain = m.registry.get? domain := by
  intro m'
  refine ⟨fun domain q q' hq hq' => ?_, fun domain h => ?_⟩
  · rcases Changes.perform m p domain hop with hsame | ⟨-, hchange⟩
    · obtain rfl := Option.some.inj (hq.symm.trans (hsame.symm.trans hq'))
      exact Or.inl (.refl m p op domain q)
    · rcases hchange q' hq' with ⟨q₁, hq₁, hkept⟩ | hreplaced
      · obtain rfl := Option.some.inj (hq.symm.trans hq₁)
        exact Or.inl hkept
      · exact Or.inr hreplaced
  · exact (Changes.perform m p domain hop).resolve_right fun hchange => h hchange.1

/-- Two profiles are installed, and the network of one of them is connected for the first time. -/
def shopInstalls : List Step :=
  [(.obliging, .add (some (.ofSim "a.example")) ⟨10, "shop"⟩ false),
    (.obliging, .add (some (.ofSim "b.example")) ⟨10, "shop"⟩ true)]

theorem profiles_are_immutable_connected :
    let m := (new .default .default).run shopInstalls
    let m' := (m.perform .obliging (.networkConnected "a.example")).2
    (∃ q q', m.registry.get? "a.example" = some q ∧ m'.registry.get? "a.example" = some q' ∧
      m.KeptThrough .obliging (.networkConnected "a.example") "a.example" q q' ∧ q ≠ q') ∧
    m'.registry.get? "b.example" = m.registry.get? "b.example" := by
  intro m m'
  let q := Profile.new (.ofSim "a.example") 0 ⟨10, "shop"⟩ .saved .sim
  let q' := { q with hasEverConnected := true }
  have hq : m.registry.get? "a.example" = some q := by decide
  have hq' : m'.registry.get? "a.example" = some q' := by decide
  have hop : ∀ s, Operation.networkConnected "a.example" ≠ .restore s := fun s h => nomatch h
  obtain ⟨hprofile, hframe⟩ := profiles_are_immutable m .obliging hop
  have hother : ¬ m.Concerns .obliging "b.example" (.networkConnected "a.example") := by
    unfold Concerns
    decide
  refine ⟨⟨q, q', hq, hq', ?_, by decide⟩, hframe "b.example" hother⟩
  rcases hprofile "a.example" q q' hq hq' with hkept | hreplaced
  · exact hkept
  · -- a connection is neither an installation nor an import
    rcases hreplaced.named with ⟨_, _, _, hadd, -⟩ | ⟨_, himport, -⟩
    · cases hadd
    · cases himport

end Manager

end Hotspot
