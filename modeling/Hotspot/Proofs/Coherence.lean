/-
  Hotspot/Proofs/Coherence.lean
  =============================
  **A profile's credential is of the type that is recorded for it.**

  The domain that a profile is entered under, the credential in its configuration and the type
  recorded beside it are three pieces of data.  They fit when a profile comes in: a request is
  validated, and an import makes the credential and names its type in one go
  (`ProfileConfig.coherent_of_validate`, `Legacy.Entry.coherent_of_toProfileConfig`).  They go on
  fitting, since what is changed of a profile later is neither (`Profile.SameSubscription`).  A
  restored state is taken as it is, so it must fit by itself.

  A request asks for more than an import does.  A profile that came by request keeps to it, also
  when it was stored and restored in between (`Requested`): the rules of validation do not look
  at what changes.
-/
import Hotspot.Proofs.Immutability
import Hotspot.Proofs.Outcomes

namespace Hotspot

def Credential.has (c : Credential) : CredentialType → Bool
  | .user => c.user.isSome
  | .sim => c.sim.isSome
  | .certificate => c.certificate.isSome

/-- A configuration names its provider by a domain, and holds a credential of one type and of no
    other. -/
structure ProfileConfig.Coherent (config : ProfileConfig) (type : CredentialType) : Prop where
  domain : config.fqdn ≠ ""
  provider : ∃ sp, config.homeSp = some sp
  credential : ∃ c, config.credential = some c ∧ ∀ type', c.has type' = true ↔ type' = type

/-- The recorded type of a profile is that of its credential. -/
def Profile.Coherent (q : Profile) : Prop := q.config.Coherent q.credentialType

/-! ### What comes in fits -/

namespace Defect

variable {d : Defect}

theorem of_unless {rule : Prop} [Decidable rule] {u : Unit} (h : d.unless rule = .ok u) :
    rule := by
  by_cases hrule : rule
  · exact hrule
  · rw [Defect.unless, if_neg hrule] at h
    cases h

theorem eq_some_of_ifMissing {α : Type} {part : Option α} {a : α}
    (h : d.ifMissing part = .ok a) : part = some a := by
  cases part with
  | none => cases h
  | some b => rw [Except.ok.inj h]

end Defect

theorem Credential.has_of_validate {c : Credential} {updateIdentifier : UInt32}
    {type : CredentialType} (h : c.validate updateIdentifier = .ok type)
    (type' : CredentialType) : c.has type' = true ↔ type' = type := by
  unfold validate at h
  split at h
  · obtain ⟨-, -, h⟩ := bind_eq_ok_iff.1 h
    cases h
    cases type' <;> simp [has, *]
  · obtain ⟨-, -, h⟩ := bind_eq_ok_iff.1 h
    cases h
    cases type' <;> simp [has, *]
  · obtain ⟨-, -, h⟩ := bind_eq_ok_iff.1 h
    cases h
    cases type' <;> simp [has, *]
  · cases h
  · cases h

namespace ProfileConfig

variable {config : ProfileConfig} {type : CredentialType}

/-- What validation lets through fits. -/
theorem coherent_of_validate (h : config.validate = .ok type) : config.Coherent type := by
  obtain ⟨sp, hsp, h⟩ := bind_eq_ok_iff.1 h
  obtain ⟨_, hdomain, h⟩ := bind_eq_ok_iff.1 h
  obtain ⟨-, -, h⟩ := bind_eq_ok_iff.1 h
  obtain ⟨c, hc, h⟩ := bind_eq_ok_iff.1 h
  obtain ⟨-, -, h⟩ := bind_eq_ok_iff.1 h
  have hprovider := Defect.eq_some_of_ifMissing hsp
  refine ⟨?_, ⟨sp, hprovider⟩, c, Defect.eq_some_of_ifMissing hc, c.has_of_validate h⟩
  rw [fqdn, hprovider]
  exact Defect.of_unless hdomain

/-- Validation does not look at the carrier. -/
theorem validate_withCarrier (config : ProfileConfig) (carrierId : Option Int32) :
    { config with carrierId }.validate = config.validate := rfl

end ProfileConfig

namespace Legacy

theorem Enterprise.has_userCredential {e : Enterprise} {c : Credential}
    (h : e.userCredential = .ok c) (type : CredentialType) : c.has type = true ↔ type = .user := by
  unfold userCredential at h
  split at h
  · cases h
  · obtain ⟨_, -, h⟩ := bind_eq_ok_iff.1 h
    cases h
    cases type <;> simp [Credential.has, Credential.ofRealm]

theorem Enterprise.has_certificateCredential {e : Enterprise} {c : Credential}
    (h : e.certificateCredential = .ok c) (type : CredentialType) :
    c.has type = true ↔ type = .certificate := by
  obtain ⟨_, -, h⟩ := bind_eq_ok_iff.1 h
  obtain ⟨_, -, h⟩ := bind_eq_ok_iff.1 h
  cases h
  cases type <;> simp [Credential.has, Credential.ofRealm]

theorem Enterprise.has_simCredential {e : Enterprise} {eapType : EapType} {c : Credential}
    (h : e.simCredential eapType = .ok c) (type : CredentialType) :
    c.has type = true ↔ type = .sim := by
  unfold simCredential at h
  split at h
  · cases h
  · cases h
    cases type <;> simp [Credential.has, Credential.ofRealm]

/-- The credential of an entry is of the type that is named with it. -/
theorem Enterprise.has_of_credential {e : Enterprise} {c : Credential} {type : CredentialType}
    (h : e.credential = .ok (c, type)) (type' : CredentialType) :
    c.has type' = true ↔ type' = type := by
  have named : ∀ {x : Except Unusable Credential} {t : CredentialType},
      x.map (·, t) = .ok (c, type) → x = .ok c ∧ t = type := by
    intro x t hx
    cases x with
    | error reason => cases hx
    | ok c' =>
      cases hx
      exact ⟨rfl, rfl⟩
  unfold credential at h
  cases hmethod : e.eapMethod <;> simp only [hmethod] at h
  case ttls =>
    obtain ⟨hc, rfl⟩ := named h
    exact has_userCredential hc type'
  case tls =>
    obtain ⟨hc, rfl⟩ := named h
    exact has_certificateCredential hc type'
  case peap => cases h
  case pwd => cases h
  all_goals
    obtain ⟨hc, rfl⟩ := named h
    exact has_simCredential hc type'

/-- What an import makes of an entry fits. -/
theorem Entry.coherent_of_toProfileConfig {entry : Entry} {config : ProfileConfig}
    {type : CredentialType} (h : entry.toProfileConfig = .ok (config, type)) :
    config.Coherent type := by
  unfold toProfileConfig at h
  split at h
  · cases h
  · rename_i hdomain
    obtain ⟨⟨c, type'⟩, hc, h⟩ := bind_eq_ok_iff.1 h
    cases h
    exact ⟨hdomain, ⟨_, rfl⟩, c, rfl, Enterprise.has_of_credential hc⟩

end Legacy

/-! ### What is changed later still fits -/

namespace Profile.SameSubscription

variable {q q' : Profile}

theorem coherent (h : q.SameSubscription q') (hq : q.Coherent) : q'.Coherent := by
  unfold Coherent at hq ⊢
  rw [← h.config] at hq
  rw [h.credentialType]
  exact ⟨hq.domain, hq.provider, hq.credential⟩

theorem validate (h : q.SameSubscription q') (hq : q.config.validate = .ok q.credentialType) :
    q'.config.validate = .ok q'.credentialType := by
  rw [← h.config, ProfileConfig.validate_withCarrier] at hq
  rw [hq, h.credentialType]

end Profile.SameSubscription

theorem InstallRequest.validate_of_profile? {r : InstallRequest} {m : Manager} {q : Profile}
    (hq : r.profile? m = some q) : q.config.validate = .ok q.credentialType := by
  unfold profile? at hq
  split at hq
  · cases hq
  · split at hq
    · cases hq
    · rename_i hvalid
      obtain rfl := Option.some.inj hq
      exact hvalid

theorem Reply.ofResult_eq_done_iff {result : Except ProfileError Unit} :
    Reply.ofResult result = .done ↔ result = .ok () := by
  cases result with
  | ok u => exact ⟨fun _ => rfl, fun _ => rfl⟩
  | error e => exact ⟨fun h => (nomatch h), fun h => (nomatch h)⟩

namespace Manager

variable {m : Manager} {p : Platform} {op : Operation} {domain : String} {q q' : Profile}

/-! ### New profiles -/

/-- An accepted request leaves a profile that keeps to the rules of validation. -/
theorem validate_of_add {config : ProfileConfig} {caller : AppIdentity} {isSuggestion : Bool}
    (hdone : (m.perform p (.add (some config) caller isSuggestion)).1 = .done) :
    ∃ q, (m.perform p (.add (some config) caller isSuggestion)).2.registry.get? config.fqdn =
      some q ∧ q.fqdn = config.fqdn ∧ q.config.validate = .ok q.credentialType := by
  have hok : (m.add p (some config) caller isSuggestion).1 = .ok () :=
    Reply.ofResult_eq_done_iff.1 hdone
  show ∃ q, (m.add p (some config) caller isSuggestion).2.registry.get? config.fqdn = some q ∧ _
  let r : InstallRequest := { config? := some config, caller, isSuggestion }
  obtain ⟨q, hq, hadd⟩ := add_of_accepted m p r (failure_eq_none_of_add_eq_ok m p r hok)
  obtain ⟨hconfig, -, -⟩ := InstallRequest.of_profile? hq
  obtain rfl : config = q.config := Option.some.inj hconfig
  obtain ⟨h, hget⟩ := get?_enter_self (r.accepted m p) p q q.isSaved
  have hsame := q.sameSubscription_recarried (p.resolve h)
  rw [hadd]
  exact ⟨_, hget, hsame.fqdn, hsame.validate (InstallRequest.validate_of_profile? hq)⟩

/-- An accepted import leaves a coherent profile. -/
theorem coherent_of_importLegacy {entry : Legacy.Entry}
    (hdone : (m.perform p (.importLegacy entry)).1 = .done) :
    ∃ q, (m.perform p (.importLegacy entry)).2.registry.get? entry.fqdn = some q ∧
      q.Coherent := by
  have hok : (m.importLegacy p entry).1 = .ok () := Reply.ofResult_eq_done_iff.1 hdone
  show ∃ q, (m.importLegacy p entry).2.registry.get? entry.fqdn = some q ∧ _
  rw [importLegacy_eq] at hok ⊢
  cases hentry : entry.toProfileConfig with
  | error reason =>
    rw [hentry] at hok
    cases hok
  | ok converted =>
    obtain ⟨config, type⟩ := converted
    let q := Profile.new config m.registry.nextIndex entry.creator .saved type
    obtain ⟨h, hget⟩ := get?_enter_self
      { m.increment .installAttempted with registry := m.registry.takeIndex } p q
      (q.owner.package ≠ "")
    have hsame := q.sameSubscription_recarried (p.resolve h)
    have hfqdn : q.fqdn = entry.fqdn := Legacy.Entry.fqdn_of_toProfileConfig hentry
    exact ⟨_, hfqdn ▸ hget, hsame.coherent (Legacy.Entry.coherent_of_toProfileConfig hentry)⟩

theorem ReplacedThrough.coherent (h : m.ReplacedThrough p op domain q')
    (hget : (m.perform p op).2.registry.get? domain = some q') : q'.Coherent := by
  rcases h.named with ⟨config, caller, isSuggestion, rfl, rfl⟩ | ⟨entry, rfl, rfl⟩
  · obtain ⟨q, hq, -, hvalid⟩ := validate_of_add h.accepted
    obtain rfl := Option.some.inj (hq.symm.trans hget)
    exact ProfileConfig.coherent_of_validate hvalid
  · obtain ⟨q, hq, hcoherent⟩ := coherent_of_importLegacy h.accepted
    obtain rfl := Option.some.inj (hq.symm.trans hget)
    exact hcoherent

/-! ### Runs -/

def Coherent (m : Manager) : Prop := ∀ domain q, m.registry.get? domain = some q → q.Coherent

theorem coherent_new (settings : Settings) (matchers : Matchers) :
    (new settings matchers).Coherent :=
  fun _ _ h => nomatch h

def RestoresCoherent (op : Operation) : Prop :=
  ∀ s, op = .restore s → ∀ q ∈ s.profiles, q.Coherent

theorem Coherent.perform (h : m.Coherent) (p : Platform) (hrestored : RestoresCoherent op) :
    (m.perform p op).2.Coherent := by
  intro domain q' hq'
  rcases op.eq_restore_or with ⟨s, rfl⟩ | hop
  · have hregistry : (m.perform p (.restore s)).2.registry = m.registry.restore s :=
      restore_registry m s
    rw [hregistry] at hq'
    exact hrestored s rfl q' (Registry.get?_restore hq').1
  · rcases Changes.perform m p domain hop with hsame | ⟨-, hchange⟩
    · exact h domain q' (hsame ▸ hq')
    · rcases hchange q' hq' with ⟨q, hq, hkept⟩ | hreplaced
      · exact hkept.toSameSubscription.coherent (h domain q hq)
      · exact hreplaced.coherent hq'

theorem Coherent.run (h : m.Coherent) {steps : List Step}
    (hrestored : ∀ s ∈ steps, RestoresCoherent s.2) : (m.run steps).Coherent := by
  induction steps generalizing m with
  | nil => exact h
  | cons s rest ih =>
    obtain ⟨hs, hrest⟩ := List.forall_mem_cons.1 hrestored
    exact ih (h.perform s.1 hs) hrest

/-! ### Profiles that came by request -/

/-- `q` is installed and came by a request to install: the request was accepted and left it there;
    or it came so, and stayed through an operation that is no restoring and put no new profile in
    its place; or it came so, here or in another manager, and a restored state brought it back. -/
inductive Requested : Manager → Profile → Prop
  | accepted {m : Manager} {p : Platform} {config : ProfileConfig} {caller : AppIdentity}
      {isSuggestion : Bool} {q : Profile}
      (hdone : (m.perform p (.add (some config) caller isSuggestion)).1 = .done)
      (hget : (m.perform p (.add (some config) caller isSuggestion)).2.registry.get?
        config.fqdn = some q) :
      Requested (m.perform p (.add (some config) caller isSuggestion)).2 q
  | kept {m : Manager} {p : Platform} {op : Operation} {q q' : Profile} (h : Requested m q)
      (hop : ∀ s, op ≠ .restore s) (hstays : ¬ m.ReplacedThrough p op q.fqdn q')
      (hget : (m.perform p op).2.registry.get? q.fqdn = some q') :
      Requested (m.perform p op).2 q'
  | restored {m₀ m : Manager} {p : Platform} {s : PersistedState} {q : Profile}
      (h : Requested m₀ q)
      (hget : (m.perform p (.restore s)).2.registry.get? q.fqdn = some q) :
      Requested (m.perform p (.restore s)).2 q

/-- A profile that came by request is installed under its domain and keeps to the rules of
    validation.  The induction is on the way it took. -/
theorem Requested.valid (h : Requested m q) :
    m.registry.get? q.fqdn = some q ∧ q.config.validate = .ok q.credentialType := by
  induction h with
  | accepted hdone hget =>
    obtain ⟨q₁, hq₁, hfqdn, hvalid⟩ := validate_of_add hdone
    obtain rfl := Option.some.inj (hq₁.symm.trans hget)
    exact ⟨hfqdn ▸ hget, hvalid⟩
  | @kept m p op q q' h hop hstays hget ih =>
    obtain ⟨hbefore, hvalid⟩ := ih
    have hsame : q.SameSubscription q' := by
      rcases Changes.perform m p q.fqdn hop with hleft | ⟨-, hchange⟩
      · obtain rfl := Option.some.inj (hbefore.symm.trans (hleft.symm.trans hget))
        exact .refl q
      · rcases hchange q' hget with ⟨q₁, hq₁, hkept⟩ | hreplaced
        · obtain rfl := Option.some.inj (hbefore.symm.trans hq₁)
          exact hkept.toSameSubscription
        · exact absurd hreplaced hstays
    exact ⟨hsame.fqdn ▸ hget, hsame.validate hvalid⟩
  | restored _ hget ih => exact ⟨hget, ih.2⟩

/-- Only an import ends it: what is found in the place of a profile that came by request came by
    request too, or by an import for this domain. -/
theorem Requested.next (h : Requested m q) (p : Platform) (hop : ∀ s, op ≠ .restore s)
    (hget : (m.perform p op).2.registry.get? q.fqdn = some q') :
    Requested (m.perform p op).2 q' ∨
      ∃ entry, op = .importLegacy entry ∧ entry.fqdn = q.fqdn ∧ (m.perform p op).1 = .done := by
  by_cases hreplaced : m.ReplacedThrough p op q.fqdn q'
  · rcases hreplaced.named with ⟨config, caller, isSuggestion, rfl, hconfig⟩ | ⟨entry, rfl, hentry⟩
    · exact Or.inl (.accepted hreplaced.accepted (hconfig ▸ hget))
    · exact Or.inr ⟨entry, rfl, hentry, hreplaced.accepted⟩
  · exact Or.inl (.kept h hop hreplaced hget)

/-- **Credentials are of the type that is recorded.**  After every run that restores nothing else,
    each profile is installed under its own domain, which is not empty, has a provider and a
    credential, and the credential holds the recorded variant alone.  A profile that came by
    request still keeps to all the rules of validation, whatever was done since. -/
theorem credentials_are_coherent :
    (∀ (settings : Settings) (matchers : Matchers) (steps : List Step),
      (∀ p s, (p, Operation.restore s) ∈ steps → ∀ q ∈ s.profiles, q.Coherent) →
      ∀ domain q, ((new settings matchers).run steps).registry.get? domain = some q →
        q.fqdn = domain ∧ q.Coherent) ∧
    ∀ m q, Requested m q →
      m.registry.get? q.fqdn = some q ∧ q.config.validate = .ok q.credentialType := by
  refine ⟨fun settings matchers steps hrestored domain q hq => ⟨?_, ?_⟩, fun m q h => h.valid⟩
  · exact keyed_run steps Registry.keyed_empty domain q hq
  · refine (coherent_new settings matchers).run (fun step hstep s hs => ?_) domain q hq
    exact hrestored step.1 s (hs ▸ hstep)

/-- Two profiles come in by request and by import, next to one that is restored; and a profile that
    came by request is connected, stored, and restored by another manager. -/
theorem credentials_are_coherent_restored :
    let m := (new .default .default).run
      [(.obliging, .restore { profiles := [.new (.ofSim "b.example") 7 ⟨11, "mail"⟩ .saved .sim]
                              nextIndex := 8 }),
        (.obliging, .add (some (.ofSim "a.example")) ⟨10, "shop"⟩ false),
        (.obliging, .importLegacy (.ofSim "c.example"))]
    let m₁ := ((new .default .default).perform .obliging
      (.add (some (.ofSim "a.example")) ⟨10, "shop"⟩ false)).2
    let m₂ := (m₁.perform .obliging (.networkConnected "a.example")).2
    let q := { Profile.new (.ofSim "a.example") 0 ⟨10, "shop"⟩ .saved .sim with
      hasEverConnected := true }
    m.registry.profiles.keys = ["a.example", "b.example", "c.example"] ∧
      (∀ domain q, m.registry.get? domain = some q → q.fqdn = domain ∧ q.Coherent) ∧
      (((new .default .default).perform .obliging (.restore m₂.registry.toState)).2.registry.get?
        "a.example" = some q ∧ q.config.validate = .ok .sim) := by
  intro m m₁ m₂ q
  refine ⟨by decide, credentials_are_coherent.1 _ _ _ fun p s hs q hq => ?_, ?_⟩
  · simp only [List.mem_cons, Prod.mk.injEq, Operation.restore.injEq, reduceCtorEq, and_false,
      List.not_mem_nil, or_false] at hs
    rw [hs.2, List.mem_singleton] at hq
    rw [hq]
    exact ProfileConfig.coherent_of_validate (by decide)
  · have haccepted : Requested m₁ (.new (.ofSim "a.example") 0 ⟨10, "shop"⟩ .saved .sim) :=
      .accepted (by decide) (by decide)
    have hkept : Requested m₂ q := by
      refine .kept haccepted (fun s h => nomatch h) (fun h => ?_) (by decide)
      rcases h.named with ⟨_, _, _, hop, -⟩ | ⟨_, hop, -⟩ <;> cases hop
    have hrestored : Requested
        ((new .default .default).perform .obliging (.restore m₂.registry.toState)).2 q :=
      .restored hkept (by decide)
    exact credentials_are_coherent.2 _ _ hrestored

end Manager

end Hotspot
