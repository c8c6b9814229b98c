/-
  Hotspot/Proofs/Gates.lean
  =========================
  **The gates that a new profile passes.**

  A request to install a profile meets four gates: the configuration is complete, the
  certificate authority it names is trusted, it is no suggestion over another package's
  profile, and its credential can be installed.  What each gate objects (`failure`) and what it
  asks of the platform (`calls`) is stated here for each gate by itself; the one thing that
  depends on the gates before it is the history that the platform answers from.

  The first gate that objects decides the error, and the manager is as it was but for the
  calls up to that gate (`add_of_refused`).  A request that no gate objects to is entered
  (`add_of_accepted`).
-/
import Hotspot.Proofs.Questions

namespace Hotspot

/-- The gates, in the order a request meets them. -/
inductive Gate where
  | validation
  | trust
  | ownership
  | install
deriving DecidableEq, Repr

namespace Gate

/-- The gates that a request passed when it comes to this one. -/
def before : Gate → List Gate
  | .validation => []
  | .trust => [.validation]
  | .ownership => [.validation, .trust]
  | .install => [.validation, .trust, .ownership]

def kind : Gate → ErrorKind
  | .validation => .validation
  | .trust => .trust
  | .ownership => .ownership
  | .install => .install

end Gate

structure InstallRequest where
  config? : Option ProfileConfig
  caller : AppIdentity
  isSuggestion : Bool

/-- The certificate authority whose trust is in question.  A configuration that mends an
    older one puts none in question. -/
def ProfileConfig.authority? (c : ProfileConfig) : Option String :=
  if c.updateIdentifier = 0 then c.caCertificate else none

namespace InstallRequest

variable (r : InstallRequest) (m : Manager) (p : Platform)

def profile? : Option Profile :=
  match r.config? with
  | none => none
  | some config =>
    match config.validate with
    | .error _ => none
    | .ok type =>
      some (.new config m.registry.nextIndex r.caller (.ofSuggestion r.isSuggestion) type)

def atTrust : History := .increment .installAttempted :: m.history

def trustCalls : List Call :=
  (r.config?.bind (·.authority?)).toList.map fun ca => .verify ca (p.verify (atTrust m) ca)

def atInstall : History := (r.trustCalls m p).reverse ++ atTrust m

def calls : Gate → List Call
  | .validation => []
  | .trust => r.trustCalls m p
  | .ownership => []
  | .install => (r.profile? m).toList.map fun q => .install q (p.install (r.atInstall m p) q)

def failure : Gate → Option ProfileError
  | .validation =>
    match r.config? with
    | none => some (.invalid .missingConfiguration)
    | some config =>
      match config.validate with
      | .error defect => some (.invalid defect)
      | .ok _ => none
  | .trust =>
    (r.config?.bind (·.authority?)).bind fun ca => (p.verify (atTrust m) ca).map .untrusted
  | .ownership => r.config?.bind fun config =>
    (m.registry.get? config.fqdn).bind fun old =>
      if r.isSuggestion = true ∧ old.owner.package ≠ r.caller.package then
        some (.notOwner config.fqdn)
      else none
  | .install =>
    (r.profile? m).bind fun q => (p.install (r.atInstall m p) q).map .notInstalled

def callsThrough (g : Gate) : List Call :=
  .increment .installAttempted :: (g.before ++ [g]).flatMap (r.calls m p)

/-- The manager when a gate refused the request.  The install gate uses up the number. -/
def refused (g : Gate) : Manager :=
  { m with
    registry := if g = .install then m.registry.takeIndex else m.registry
    history := (r.callsThrough m p g).reverse ++ m.history }

def accepted : Manager :=
  { m with
    registry := m.registry.takeIndex
    history := (r.callsThrough m p .install).reverse ++ m.history }

theorem failure_validation_eq_none_iff :
    r.failure m p .validation = none ↔
      ∃ config type, r.config? = some config ∧ config.validate = .ok type := by
  unfold failure
  cases hconfig : r.config? with
  | none => simp
  | some config => cases hvalid : config.validate with
    | error defect => simp [hvalid]
    | ok type => simp [hvalid]

theorem kind_of_failure {g : Gate} {e : ProfileError} (h : r.failure m p g = some e) :
    e.kind = g.kind := by
  cases g with
  | validation =>
    unfold failure at h
    cases hconfig : r.config? with
    | none =>
      simp only [hconfig, Option.some.injEq] at h
      exact h ▸ rfl
    | some config => cases hvalid : config.validate with
      | error defect =>
        simp only [hconfig, hvalid, Option.some.injEq] at h
        exact h ▸ rfl
      | ok type => simp [hconfig, hvalid] at h
  | trust =>
    obtain ⟨ca, -, h⟩ := Option.bind_eq_some_iff.1 h
    obtain ⟨cause, -, rfl⟩ := Option.map_eq_some_iff.1 h
    rfl
  | ownership =>
    obtain ⟨config, -, h⟩ := Option.bind_eq_some_iff.1 h
    obtain ⟨old, -, h⟩ := Option.bind_eq_some_iff.1 h
    split at h
    · exact Option.some.inj h ▸ rfl
    · cases h
  | install =>
    obtain ⟨q, -, h⟩ := Option.bind_eq_some_iff.1 h
    obtain ⟨cause, -, rfl⟩ := Option.map_eq_some_iff.1 h
    rfl

theorem first_failure :
    (∃ g e, (∀ g' ∈ g.before, r.failure m p g' = none) ∧ r.failure m p g = some e) ∨
      ∀ g, r.failure m p g = none := by
  cases hv : r.failure m p .validation with
  | some e => exact Or.inl ⟨.validation, e, by simp [Gate.before], hv⟩
  | none => cases ht : r.failure m p .trust with
    | some e => exact Or.inl ⟨.trust, e, by simp [Gate.before, hv], ht⟩
    | none => cases ho : r.failure m p .ownership with
      | some e => exact Or.inl ⟨.ownership, e, by simp [Gate.before, hv, ht], ho⟩
      | none => cases hi : r.failure m p .install with
        | some e => exact Or.inl ⟨.install, e, by simp [Gate.before, hv, ht, ho], hi⟩
        | none => exact Or.inr fun g => by cases g <;> assumption

theorem callsThrough_trust :
    r.callsThrough m p .trust = .increment .installAttempted :: r.trustCalls m p := by
  simp [callsThrough, Gate.before, calls]

theorem callsThrough_ownership : r.callsThrough m p .ownership = r.callsThrough m p .trust := by
  simp [callsThrough, Gate.before, calls]

theorem callsThrough_install :
    r.callsThrough m p .install = r.callsThrough m p .trust ++ r.calls m p .install := by
  simp [callsThrough, Gate.before, calls]

theorem refused_trust : r.refused m p .trust = { m with history := r.atInstall m p } := by
  simp [refused, callsThrough_trust, atInstall, atTrust]

theorem refused_ownership : r.refused m p .ownership = r.refused m p .trust := by
  simp [refused, callsThrough_ownership]

end InstallRequest

namespace Manager

variable (m : Manager) (p : Platform)

/-! ### The single gates -/

theorem verifyAuthority_eq (config : ProfileConfig) :
    m.verifyAuthority p config =
      match config.authority? with
      | none => (none, m)
      | some ca => m.verify p ca := by
  unfold verifyAuthority ProfileConfig.authority?
  by_cases h : config.updateIdentifier = 0
  · simp only [if_pos h]
    cases config.caCertificate <;> rfl
  · simp only [if_neg h]
    cases config.caCertificate <;> rfl

theorem failure_ownership (r : InstallRequest) {config : ProfileConfig}
    (hconfig : r.config? = some config) :
    r.failure m p .ownership =
      if m.forbidsSuggestion config.fqdn r.caller.package r.isSuggestion then
        some (.notOwner config.fqdn)
      else none := by
  cases hold : m.registry.get? config.fqdn with
  | none => simp [InstallRequest.failure, hconfig, forbidsSuggestion, hold]
  | some old => simp [InstallRequest.failure, hconfig, forbidsSuggestion, hold]

/-- The trust gate: the answer to its question, and the manager that remembers it. -/
theorem verifyAuthority_attempted (r : InstallRequest) {config : ProfileConfig}
    (hconfig : r.config? = some config) :
    ((m.increment .installAttempted).verifyAuthority p config).1.map .untrusted =
        r.failure m p .trust ∧
      ((m.increment .installAttempted).verifyAuthority p config).2 = r.refused m p .trust := by
  rw [verifyAuthority_eq, InstallRequest.refused_trust]
  unfold InstallRequest.atInstall InstallRequest.trustCalls InstallRequest.failure
  rw [hconfig, Option.bind_some]
  cases config.authority? with
  | none => exact ⟨rfl, rfl⟩
  | some ca => exact ⟨rfl, rfl⟩

theorem accepted_eq (r : InstallRequest) {q : Profile} (hq : r.profile? m = some q) :
    r.accepted m p = { m with
      registry := m.registry.takeIndex
      history := .install q (p.install (r.atInstall m p) q) :: r.atInstall m p } := by
  simp [InstallRequest.accepted, InstallRequest.callsThrough_install,
    InstallRequest.callsThrough_trust, InstallRequest.calls, hq, InstallRequest.atInstall,
    InstallRequest.atTrust]

theorem refused_install (r : InstallRequest) : r.refused m p .install = r.accepted m p := rfl

/-- Past the ownership gate, the install gate decides. -/
theorem installNew_eq (r : InstallRequest) {config : ProfileConfig} {type : CredentialType}
    (hconfig : r.config? = some config) (hvalid : config.validate = .ok type) :
    ∃ q, r.profile? m = some q ∧
      (r.refused m p .trust).installNew p config r.caller (.ofSuggestion r.isSuggestion) type =
        match r.failure m p .install with
        | some e => (.error e, r.refused m p .install)
        | none => (.ok (), (r.accepted m p).enter p q q.isSaved) := by
  have hq : r.profile? m = some
      (.new config m.registry.nextIndex r.caller (.ofSuggestion r.isSuggestion) type) := by
    simp only [InstallRequest.profile?, hconfig, hvalid]
  refine ⟨_, hq, ?_⟩
  rw [refused_install, accepted_eq m p r hq, InstallRequest.refused_trust]
  unfold InstallRequest.failure installNew install
  simp only [hq, Option.bind_some]
  cases hanswer : p.install (r.atInstall m p)
      (.new config m.registry.nextIndex r.caller (.ofSuggestion r.isSuggestion) type) with
  | some failure => rfl
  | none => cases r.isSuggestion <;> rfl

/-! ### The whole way -/

theorem add_of_valid (r : InstallRequest) {config : ProfileConfig} {type : CredentialType}
    (hconfig : r.config? = some config) (hvalid : config.validate = .ok type) :
    m.add p r.config? r.caller r.isSuggestion =
      match r.failure m p .trust, r.failure m p .ownership with
      | some e, _ => (.error e, r.refused m p .trust)
      | none, some e => (.error e, r.refused m p .ownership)
      | none, none =>
        (r.refused m p .trust).installNew p config r.caller (.ofSuggestion r.isSuggestion)
          type := by
  obtain ⟨htrust, hstate⟩ := verifyAuthority_attempted m p r hconfig
  rw [← htrust, failure_ownership m p r hconfig, InstallRequest.refused_ownership, ← hstate]
  unfold add
  simp only [hconfig, hvalid]
  rcases hask : (m.increment .installAttempted).verifyAuthority p config with ⟨answer, m'⟩
  rw [hask] at hstate
  cases answer with
  | some failure => rfl
  | none =>
    have hforbids : m'.forbidsSuggestion config.fqdn r.caller.package r.isSuggestion =
        m.forbidsSuggestion config.fqdn r.caller.package r.isSuggestion := by
      rw [show m' = r.refused m p .trust from hstate, InstallRequest.refused_trust]
      rfl
    simp only [hforbids, Option.map_none]
    split <;> rfl

/-- **A refused request.**  The first gate that objects decides the error; nothing is changed
    beyond the calls up to that gate. -/
theorem add_of_refused (r : InstallRequest) (g : Gate) {e : ProfileError}
    (hbefore : ∀ g' ∈ g.before, r.failure m p g' = none) (hfailure : r.failure m p g = some e) :
    m.add p r.config? r.caller r.isSuggestion = (.error e, r.refused m p g) := by
  cases g with
  | validation =>
    unfold InstallRequest.failure at hfailure
    unfold add
    cases hconfig : r.config? with
    | none =>
      simp only [hconfig, Option.some.injEq] at hfailure
      exact hfailure ▸ rfl
    | some config => cases hvalid : config.validate with
      | error defect =>
        simp only [hconfig, hvalid, Option.some.injEq] at hfailure
        simp only [hvalid]
        exact hfailure ▸ rfl
      | ok type => simp [hconfig, hvalid] at hfailure
  | trust =>
    obtain ⟨config, type, hconfig, hvalid⟩ :=
      (r.failure_validation_eq_none_iff m p).1 (hbefore .validation (by decide))
    rw [add_of_valid m p r hconfig hvalid, hfailure]
  | ownership =>
    obtain ⟨config, type, hconfig, hvalid⟩ :=
      (r.failure_validation_eq_none_iff m p).1 (hbefore .validation (by decide))
    rw [add_of_valid m p r hconfig hvalid, hbefore .trust (by decide), hfailure]
  | install =>
    obtain ⟨config, type, hconfig, hvalid⟩ :=
      (r.failure_validation_eq_none_iff m p).1 (hbefore .validation (by decide))
    obtain ⟨q, -, hinstall⟩ := installNew_eq m p r hconfig hvalid
    rw [add_of_valid m p r hconfig hvalid, hbefore .trust (by decide),
      hbefore .ownership (by decide)]
    simp only [hinstall, hfailure]

/-- **An accepted request.**  When no gate objects, the profile is entered. -/
theorem add_of_accepted (r : InstallRequest) (h : ∀ g, r.failure m p g = none) :
    ∃ q, r.profile? m = some q ∧
      m.add p r.config? r.caller r.isSuggestion =
        (.ok (), (r.accepted m p).enter p q q.isSaved) := by
  obtain ⟨config, type, hconfig, hvalid⟩ :=
    (r.failure_validation_eq_none_iff m p).1 (h .validation)
  obtain ⟨q, hq, hinstall⟩ := installNew_eq m p r hconfig hvalid
  refine ⟨q, hq, ?_⟩
  rw [add_of_valid m p r hconfig hvalid, h .trust, h .ownership]
  simp only [hinstall, h .install]

/-- A request that was accepted met with no objection. -/
theorem failure_eq_none_of_add_eq_ok (r : InstallRequest)
    (hok : (m.add p r.config? r.caller r.isSuggestion).1 = .ok ()) (g : Gate) :
    r.failure m p g = none := by
  rcases r.first_failure m p with ⟨g', e, hbefore, hfailure⟩ | hnone
  · rw [add_of_refused m p r g' hbefore hfailure] at hok
    cases hok
  · exact hnone g

/-- What a request leaves behind: the state a gate refused it in, or the profile it is for. -/
theorem request_induction {m : Manager} {p : Platform} {I : Manager → Prop} (r : InstallRequest)
    (refused : ∀ g, I (r.refused m p g))
    (accepted : ∀ q, r.profile? m = some q → (∀ g, r.failure m p g = none) →
      m.add p r.config? r.caller r.isSuggestion =
        (.ok (), (r.accepted m p).enter p q q.isSaved) →
      I ((r.accepted m p).enter p q q.isSaved)) :
    I (m.add p r.config? r.caller r.isSuggestion).2 := by
  rcases r.first_failure m p with ⟨g, e, hbefore, hfailure⟩ | hnone
  · rw [add_of_refused m p r g hbefore hfailure]
    exact refused g
  · obtain ⟨q, hq, hadd⟩ := add_of_accepted m p r hnone
    rw [hadd]
    exact accepted q hq hnone hadd

/-- What an installation leaves behind: the state a gate refused it in, or a new profile. -/
theorem add_induction {m : Manager} {p : Platform} {I : Manager → Prop}
    (refused : ∀ (r : InstallRequest) g, I (r.refused m p g))
    (accepted : ∀ (r : InstallRequest) q, r.profile? m = some q →
      I ((r.accepted m p).enter p q q.isSaved))
    (config? : Option ProfileConfig) (caller : AppIdentity) (isSuggestion : Bool) :
    I (m.add p config? caller isSuggestion).2 :=
  request_induction { config?, caller, isSuggestion } (refused _) fun q hq _ _ => accepted _ q hq

/-! ### Requests that pass -/

end Manager

namespace InstallRequest

variable (r : InstallRequest) {m : Manager} {p : Platform}

/-- What a request must satisfy to be entered: it is complete, the authority that it puts in
    question is trusted, it is no suggestion over another package's profile, and its credential
    can be installed. -/
def Admissible (m : Manager) (p : Platform) : Prop :=
  ∃ config type, r.config? = some config ∧ config.validate = .ok type ∧
    (∀ ca, config.updateIdentifier = 0 → config.caCertificate = some ca →
      p.verify (atTrust m) ca = none) ∧
    ¬(r.isSuggestion = true ∧ ∃ old, m.registry.get? config.fqdn = some old ∧
      old.owner.package ≠ r.caller.package) ∧
    p.install (r.atInstall m p) (.new config m.registry.nextIndex r.caller
      (.ofSuggestion r.isSuggestion) type) = none

theorem failure_trust_eq_none_iff {config : ProfileConfig} (hconfig : r.config? = some config) :
    r.failure m p .trust = none ↔
      ∀ ca, config.updateIdentifier = 0 → config.caCertificate = some ca →
        p.verify (atTrust m) ca = none := by
  unfold failure ProfileConfig.authority?
  rw [hconfig, Option.bind_some]
  by_cases hmends : config.updateIdentifier = 0
  · rw [if_pos hmends]
    cases config.caCertificate with
    | none => simp
    | some ca => simp [hmends]
  · rw [if_neg hmends]
    simp [hmends]

theorem failure_ownership_eq_none_iff {config : ProfileConfig}
    (hconfig : r.config? = some config) :
    r.failure m p .ownership = none ↔
      ¬(r.isSuggestion = true ∧ ∃ old, m.registry.get? config.fqdn = some old ∧
        old.owner.package ≠ r.caller.package) := by
  unfold failure
  rw [hconfig, Option.bind_some]
  cases hold : m.registry.get? config.fqdn with
  | none => simp [hold]
  | some old => simp [hold]

theorem failure_install_eq_none_iff {q : Profile} (hq : r.profile? m = some q) :
    r.failure m p .install = none ↔ p.install (r.atInstall m p) q = none := by
  unfold failure
  rw [hq, Option.bind_some, Option.map_eq_none_iff]

theorem admissible_iff : r.Admissible m p ↔ ∀ g, r.failure m p g = none := by
  constructor
  · rintro ⟨config, type, hconfig, hvalid, htrust, howner, hinstall⟩ g
    have hq : r.profile? m = some (.new config m.registry.nextIndex r.caller
        (.ofSuggestion r.isSuggestion) type) := by
      simp only [profile?, hconfig, hvalid]
    cases g with
    | validation => exact (r.failure_validation_eq_none_iff m p).2 ⟨config, type, hconfig, hvalid⟩
    | trust => exact (r.failure_trust_eq_none_iff hconfig).2 htrust
    | ownership => exact (r.failure_ownership_eq_none_iff hconfig).2 howner
    | install => exact (r.failure_install_eq_none_iff hq).2 hinstall
  · intro h
    obtain ⟨config, type, hconfig, hvalid⟩ :=
      (r.failure_validation_eq_none_iff m p).1 (h .validation)
    have hq : r.profile? m = some (.new config m.registry.nextIndex r.caller
        (.ofSuggestion r.isSuggestion) type) := by
      simp only [profile?, hconfig, hvalid]
    exact ⟨config, type, hconfig, hvalid, (r.failure_trust_eq_none_iff hconfig).1 (h .trust),
      (r.failure_ownership_eq_none_iff hconfig).1 (h .ownership),
      (r.failure_install_eq_none_iff hq).1 (h .install)⟩

/-- A gate asks for trust or for a credential, if it asks for anything. -/
theorem mem_calls {g : Gate} {c : Call} (hc : c ∈ r.calls m p g) :
    (∃ ca failure, c = .verify ca failure) ∨ ∃ q failure, c = .install q failure := by
  cases g with
  | validation => cases hc
  | trust =>
    obtain ⟨ca, -, rfl⟩ := List.mem_map.1 hc
    exact Or.inl ⟨ca, _, rfl⟩
  | ownership => cases hc
  | install =>
    obtain ⟨q, -, rfl⟩ := List.mem_map.1 hc
    exact Or.inr ⟨q, _, rfl⟩

/-- On its way through the gates a request is counted, and asks for trust and for its
    credential; nothing else happens. -/
theorem mem_callsThrough {g : Gate} {c : Call} (hc : c ∈ r.callsThrough m p g) :
    c = .increment .installAttempted ∨ (∃ ca failure, c = .verify ca failure) ∨
      ∃ q failure, c = .install q failure := by
  rcases List.mem_cons.1 hc with hcount | hc
  · exact Or.inl hcount
  · obtain ⟨g', -, hc⟩ := List.mem_flatMap.1 hc
    exact Or.inr (r.mem_calls hc)

theorem callsSince_refused (g : Gate) :
    callsSince m.history (r.refused m p g).history = r.callsThrough m p g := by
  rw [refused, callsSince_append, List.reverse_reverse]

end InstallRequest

namespace Manager

/-- **The first gate that objects decides.**  A request to install succeeds exactly when it is
    admissible.  Otherwise the error is that of the first gate that objects, no gate after it
    asks the platform anything, and profiles and watches stay as they were, as does the next
    number unless the credential could not be installed.  An import or a removal that fails has
    counted the attempt and done nothing else. -/
theorem first_gate_decides (m : Manager) (p : Platform) :
    (∀ r : InstallRequest,
      ((m.add p r.config? r.caller r.isSuggestion).1 = .ok () ↔ r.Admissible m p) ∧
      ∀ e, (m.add p r.config? r.caller r.isSuggestion).1 = .error e →
        let m' := (m.add p r.config? r.caller r.isSuggestion).2
        ∃ g : Gate, (∀ g' ∈ g.before, r.failure m p g' = none) ∧ r.failure m p g = some e ∧
          e.kind = g.kind ∧
          callsSince m.history m'.history = r.callsThrough m p g ∧
          (∀ c ∈ callsSince m.history m'.history,
            c = .increment .installAttempted ∨ (∃ ca failure, c = .verify ca failure) ∨
              ∃ q failure, c = .install q failure) ∧
          m'.registry.profiles = m.registry.profiles ∧
          m'.registry.nextIndex =
            (if g = .install then m.registry.nextIndex + 1 else m.registry.nextIndex) ∧
          m' = { m with registry := m'.registry, history := m'.history }) ∧
    (∀ entry e, (m.importLegacy p entry).1 = .error e →
      (m.importLegacy p entry).2 = m.increment .installAttempted) ∧
    ∀ uid privileged fqdn e, (m.remove p uid privileged fqdn).1 = .error e →
      (m.remove p uid privileged fqdn).2 = m.increment .uninstallAttempted := by
  refine ⟨fun r => ?_, fun entry e he => ?_, fun uid privileged fqdn e he => ?_⟩
  · rcases r.first_failure m p with ⟨g, e, hbefore, hfailure⟩ | hnone
    · have hadd := add_of_refused m p r g hbefore hfailure
      rw [hadd]
      constructor
      · constructor
        · intro hok
          cases hok
        · intro hadmissible
          rw [r.admissible_iff.1 hadmissible g] at hfailure
          cases hfailure
      · intro e' he'
        obtain rfl := Except.error.inj he'
        have hcalls := r.callsSince_refused (m := m) (p := p) g
        refine ⟨g, hbefore, hfailure, r.kind_of_failure m p hfailure, hcalls, ?_, ?_, ?_, rfl⟩
        · intro c hc
          exact r.mem_callsThrough (hcalls ▸ hc)
        · unfold InstallRequest.refused
          split <;> rfl
        · unfold InstallRequest.refused
          split <;> rfl
    · obtain ⟨q, -, hadd⟩ := add_of_accepted m p r hnone
      rw [hadd]
      refine ⟨⟨fun _ => r.admissible_iff.2 hnone, fun _ => rfl⟩, fun e he => ?_⟩
      cases he
  · rcases m.importLegacy_cases p entry with ⟨e', h⟩ | ⟨q, -, -, -, h⟩
    · rw [h]
    · rw [h] at he
      cases he
  · rcases m.remove_cases p uid privileged fqdn with ⟨e', h⟩ | ⟨q, -, -, h⟩
    · rw [h]
    · rw [h] at he
      cases he

theorem first_gate_decides_install_failure :
    let m := new .default .default
    let p := { Platform.obliging with install := fun _ _ => some (.unavailable "store") }
    let (result, m') := m.add p (some (.ofSim "home.example")) ⟨10, "shop"⟩ false
    result = .error (.notInstalled (.unavailable "store")) ∧
      m'.registry.profiles = m.registry.profiles ∧ m'.registry.nextIndex = 1 := by
  intro m p
  let r : InstallRequest :=
    { config? := some (.ofSim "home.example"), caller := ⟨10, "shop"⟩, isSuggestion := false }
  have hfailed : (m.add p r.config? r.caller r.isSuggestion).1 =
      .error (.notInstalled (.unavailable "store")) := by rfl
  obtain ⟨g, -, hfailure, hkind, -, -, hprofiles, hindex, -⟩ :=
    ((first_gate_decides m p).1 r).2 _ hfailed
  have hg : g = .install := by
    cases g with
    | install => rfl
    | _ => cases hkind
  rw [if_pos hg] at hindex
  exact ⟨hfailed, hprofiles, hindex⟩

end Manager

end Hotspot
