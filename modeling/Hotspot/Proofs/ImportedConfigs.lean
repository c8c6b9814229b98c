/-
  Hotspot/Proofs/ImportedConfigs.lean
  ===================================
  **Which legacy entries become profiles, and which of those are complete.**

  Importing an entry and installing a configuration have rules of their own.  An entry becomes a
  profile just if it has a domain and its enterprise section holds what its method needs
  (`Enterprise.Suffices`); it then stands for one credential (`Enterprise.StandsFor`), and the
  texts in it are taken as they are.

  Put to the rules of validation, the configuration of an import keeps to all of them but those
  about these texts.  They are few enough for a table of their own (`Entry.leftOpen`), and what a
  caller hears who hands the configuration in again is the first of them that is broken.  A client
  certificate is never complete: an entry has no place for its fingerprint.
-/
import Hotspot.Proofs.CompleteConfigs

namespace Hotspot.Legacy

/-! ### What an entry holds -/

/-- A reference into the secure store that is there and not blank. -/
def Named (reference : Option String) : Prop := ∃ name, reference = some name ∧ name ≠ ""

/-- What an entry has to hold for a credential of a type. -/
inductive Enterprise.Suffices (e : Enterprise) : CredentialType → Prop where
  | user (method : e.eapMethod = .ttls)
      (inner : e.phase2 = .pap ∨ e.phase2 = .mschap ∨ e.phase2 = .mschapv2)
      (authority : Named e.caAlias) : Suffices e .user
  | certificate (method : e.eapMethod = .tls) (authority : Named e.caAlias)
      (client : Named e.clientAlias) : Suffices e .certificate
  | sim (method : e.eapMethod = .sim ∨ e.eapMethod = .aka ∨ e.eapMethod = .akaPrime)
      (number : e.plmn ≠ "") : Suffices e .sim

/-- What of an entry an import does not look at, but validation does. -/
def Enterprise.Filled (e : Enterprise) : CredentialType → Prop
  | .user => e.identity ≠ "" ∧ e.password ≠ ""
  | .sim => IsImsi e.plmn
  | .certificate => False

/-- A configuration that says what an entry says, with a credential of one type. -/
structure Entry.CarriedOver (entry : Entry) (config : ProfileConfig) (type : CredentialType) :
    Prop where
  provider : config.homeSp =
    some { fqdn := entry.fqdn, friendlyName := entry.friendlyName, ois := entry.ois }
  credential : ∃ c, config.credential = some c ∧ c.realm = entry.enterprise.realm ∧
    ∀ type', c.has type' = true ↔ type' = type

/-- The rules of validation that an import of a type may break, in the order in which they are
    looked at. -/
def Entry.leftOpen (entry : Entry) (type : CredentialType) : List Rule :=
  [⟨.missingFriendlyName, entry.friendlyName ≠ ""⟩,
   ⟨.missingRealm, entry.enterprise.realm ≠ ""⟩] ++
  match type with
  | .user =>
    [⟨.missingUsername, entry.enterprise.identity ≠ ""⟩,
     ⟨.missingPassword, entry.enterprise.password ≠ ""⟩]
  | .sim => [⟨.imsi entry.enterprise.plmn, IsImsi entry.enterprise.plmn⟩]
  | .certificate => [⟨.fingerprintLength 0, False⟩]

/-! ### The credential of an entry -/

def simMethods : List (EapMethod × EapType) := [(.sim, 18), (.aka, 23), (.akaPrime, 50)]

/-- The credential that an enterprise section stands for, and its type. -/
inductive Enterprise.StandsFor (e : Enterprise) : Credential → CredentialType → Prop where
  | user {ca innerMethod : String} (method : e.eapMethod = .ttls)
      (inner : e.phase2.innerMethod? = some innerMethod) (authority : e.caAlias = some ca)
      (named : ca ≠ "") :
      StandsFor e { Credential.ofRealm e.realm with
        caCertificate := some ca
        user := some {
          username := e.identity, password := e.password, eapType := 21, innerMethod } } .user
  | certificate {ca client : String} (method : e.eapMethod = .tls)
      (authority : e.caAlias = some ca) (named : ca ≠ "") (key : e.clientAlias = some client)
      (keyNamed : client ≠ "") :
      StandsFor e { Credential.ofRealm e.realm with
        caCertificate := some ca
        clientCertificate := some client
        clientPrivateKey := some client
        certificate := some { type := "x509v3", fingerprint := "" } } .certificate
  | sim {eapType : EapType} (method : (e.eapMethod, eapType) ∈ simMethods)
      (number : e.plmn ≠ "") :
      StandsFor e { Credential.ofRealm e.realm with
        sim := some { imsi := e.plmn, eapType } } .sim

theorem requireAlias_eq_ok_iff {reason : Unusable} {reference : Option String} {name : String} :
    requireAlias reason reference = .ok name ↔ reference = some name ∧ name ≠ "" := by
  cases reference with
  | none => simp [requireAlias]
  | some name' =>
    rw [requireAlias]
    split
    · next hblank => simp [hblank, eq_comm]
    · next hname =>
      constructor
      · intro h
        cases h
        exact ⟨rfl, hname⟩
      · rintro ⟨h, -⟩
        rw [Option.some.inj h]

theorem Phase2.exists_innerMethod?_iff (m : Phase2) :
    (∃ name, m.innerMethod? = some name) ↔ m = .pap ∨ m = .mschap ∨ m = .mschapv2 := by
  cases m <;> simp [innerMethod?]

theorem Phase2.innerMethod?_mem {m : Phase2} {name : String} (h : m.innerMethod? = some name) :
    name ∈ ["PAP", "MS-CHAP", "MS-CHAP-V2"] := by
  cases m <;> cases h <;> decide

theorem mem_simEapTypes {m : EapMethod} {eapType : EapType} (h : (m, eapType) ∈ simMethods) :
    eapType ∈ [18, 23, 50] := by
  simp only [simMethods, List.mem_cons, Prod.mk.injEq, List.not_mem_nil, or_false] at h
  rcases h with ⟨-, rfl⟩ | ⟨-, rfl⟩ | ⟨-, rfl⟩ <;> decide

theorem exists_mem_simMethods_iff (m : EapMethod) :
    (∃ eapType, (m, eapType) ∈ simMethods) ↔ m = .sim ∨ m = .aka ∨ m = .akaPrime := by
  cases m <;> simp [simMethods]

theorem map_pair_eq_ok_iff {ε α β : Type} {x : Except ε α} {a : α} {b b' : β} :
    x.map (·, b) = .ok (a, b') ↔ x = .ok a ∧ b = b' := by
  cases x <;> simp [Except.map]

namespace Enterprise

variable {e : Enterprise} {c : Credential} {type : CredentialType}

theorem simCredential_eq_ok_iff {eapType : EapType} :
    e.simCredential eapType = .ok c ↔ e.plmn ≠ "" ∧
      c = { Credential.ofRealm e.realm with sim := some { imsi := e.plmn, eapType } } := by
  rw [simCredential]
  split
  · next hblank => simp [hblank]
  · next number => simp [number, eq_comm]

theorem credential_of_sim {eapType : EapType} (h : (e.eapMethod, eapType) ∈ simMethods) :
    e.credential = (e.simCredential eapType).map (·, .sim) := by
  simp only [simMethods, List.mem_cons, Prod.mk.injEq, List.not_mem_nil, or_false] at h
  rcases h with ⟨method, rfl⟩ | ⟨method, rfl⟩ | ⟨method, rfl⟩
  · rw [credential, method]
    rfl
  · rw [credential, method]
    rfl
  · rw [credential, method]
    rfl

/-- Conversion finds the credential that a section stands for, and finds none where it stands for
    none. -/
theorem credential_eq_ok_iff : e.credential = .ok (c, type) ↔ e.StandsFor c type := by
  constructor
  · intro h
    have hsim : ∀ {m : EapMethod} {eapType : EapType}, e.eapMethod = m →
        (m, eapType) ∈ simMethods →
        (e.simCredential eapType).map (·, CredentialType.sim) = .ok (c, type) →
        e.StandsFor c type := by
      intro m eapType method hmem h
      obtain ⟨hc, rfl⟩ := map_pair_eq_ok_iff.1 h
      obtain ⟨number, rfl⟩ := simCredential_eq_ok_iff.1 hc
      exact .sim (method ▸ hmem) number
    unfold credential at h
    split at h
    · next method =>
      obtain ⟨hc, rfl⟩ := map_pair_eq_ok_iff.1 h
      unfold userCredential at hc
      split at hc
      · cases hc
      · next innerMethod inner =>
        obtain ⟨ca, hca, hc⟩ := bind_eq_ok_iff.1 hc
        cases hc
        obtain ⟨authority, named⟩ := requireAlias_eq_ok_iff.1 hca
        exact .user method inner authority named
    · next method =>
      obtain ⟨hc, rfl⟩ := map_pair_eq_ok_iff.1 h
      obtain ⟨ca, hca, hc⟩ := bind_eq_ok_iff.1 hc
      obtain ⟨client, hclient, hc⟩ := bind_eq_ok_iff.1 hc
      cases hc
      obtain ⟨authority, named⟩ := requireAlias_eq_ok_iff.1 hca
      obtain ⟨key, keyNamed⟩ := requireAlias_eq_ok_iff.1 hclient
      exact .certificate method authority named key keyNamed
    · next method => exact hsim method (by decide) h
    · next method => exact hsim method (by decide) h
    · next method => exact hsim method (by decide) h
    · cases h
    · cases h
  · intro h
    cases h with
    | user method inner authority named =>
      rw [credential, method]
      refine map_pair_eq_ok_iff.2 ⟨?_, rfl⟩
      rw [userCredential, inner]
      exact bind_eq_ok_iff.2 ⟨_, requireAlias_eq_ok_iff.2 ⟨authority, named⟩, rfl⟩
    | certificate method authority named key keyNamed =>
      rw [credential, method]
      refine map_pair_eq_ok_iff.2 ⟨?_, rfl⟩
      exact bind_eq_ok_iff.2 ⟨_, requireAlias_eq_ok_iff.2 ⟨authority, named⟩,
        bind_eq_ok_iff.2 ⟨_, requireAlias_eq_ok_iff.2 ⟨key, keyNamed⟩, rfl⟩⟩
    | sim method number =>
      rw [credential_of_sim method]
      exact map_pair_eq_ok_iff.2 ⟨simCredential_eq_ok_iff.2 ⟨number, rfl⟩, rfl⟩

theorem exists_standsFor_iff : (∃ c, e.StandsFor c type) ↔ e.Suffices type := by
  constructor
  · rintro ⟨c, h⟩
    cases h with
    | user method inner authority named =>
      exact .user method ((Phase2.exists_innerMethod?_iff _).1 ⟨_, inner⟩) ⟨_, authority, named⟩
    | certificate method authority named key keyNamed =>
      exact .certificate method ⟨_, authority, named⟩ ⟨_, key, keyNamed⟩
    | sim method number => exact .sim ((exists_mem_simMethods_iff _).1 ⟨_, method⟩) number
  · intro h
    cases h with
    | user method inner authority =>
      obtain ⟨innerMethod, inner⟩ := (Phase2.exists_innerMethod?_iff _).2 inner
      obtain ⟨ca, authority, named⟩ := authority
      exact ⟨_, .user method inner authority named⟩
    | certificate method authority client =>
      obtain ⟨ca, authority, named⟩ := authority
      obtain ⟨name, key, keyNamed⟩ := client
      exact ⟨_, .certificate method authority named key keyNamed⟩
    | sim method number =>
      obtain ⟨eapType, method⟩ := (exists_mem_simMethods_iff _).2 method
      exact ⟨_, .sim method number⟩

end Enterprise

/-! ### The configuration of an entry -/

def Entry.config (entry : Entry) (c : Credential) : ProfileConfig :=
  { ProfileConfig.empty with
    homeSp := some { fqdn := entry.fqdn, friendlyName := entry.friendlyName, ois := entry.ois }
    credential := some c }

namespace Entry

variable {entry : Entry} {config : ProfileConfig} {c : Credential} {type : CredentialType}
  {d : Defect}

theorem toProfileConfig_eq_ok_iff :
    entry.toProfileConfig = .ok (config, type) ↔
      entry.fqdn ≠ "" ∧ ∃ c, entry.enterprise.StandsFor c type ∧ config = entry.config c := by
  rw [toProfileConfig]
  split
  · next hblank => simp [hblank]
  · next hdomain =>
    constructor
    · intro h
      obtain ⟨⟨c, type'⟩, hc, h⟩ := bind_eq_ok_iff.1 h
      cases h
      exact ⟨hdomain, c, Enterprise.credential_eq_ok_iff.1 hc, rfl⟩
    · rintro ⟨-, c, hc, rfl⟩
      exact bind_eq_ok_iff.2 ⟨_, Enterprise.credential_eq_ok_iff.2 hc, rfl⟩

/-- A credential holds the variant of its type and no other. -/
theorem has_iff (h : entry.enterprise.StandsFor c type) (type' : CredentialType) :
    c.has type' = true ↔ type' = type :=
  Enterprise.has_of_credential (Enterprise.credential_eq_ok_iff.2 h) type'

theorem variants_eq (h : entry.enterprise.StandsFor c type) : c.variants = [type] := by
  simp only [Credential.variants, List.filter_cons, has_iff h, List.filter_nil]
  cases type <;> rfl

/-- An import keeps to all rules of validation but those that are left open. -/
theorem firstBroken_rules_iff (hdomain : entry.fqdn ≠ "") (h : entry.enterprise.StandsFor c type) :
    FirstBroken (entry.config c).rules d ↔ FirstBroken (entry.leftOpen type) d := by
  have hvariants := variants_eq h
  have hnames : (entry.config c).rules =
      [⟨.missingHomeSp, (entry.config c).homeSp ≠ none⟩, ⟨.missingFqdn, entry.fqdn ≠ ""⟩,
       ⟨.missingFriendlyName, entry.friendlyName ≠ ""⟩,
       ⟨.missingCredential, (entry.config c).credential ≠ none⟩, ⟨.missingRealm, c.realm ≠ ""⟩,
       ⟨.noVariant, 1 ≤ c.variants.length⟩, ⟨.severalVariants, c.variants.length ≤ 1⟩] ++
      (c.user.toList.flatMap (·.rules c 0) ++ c.sim.toList.flatMap (·.rules) ++
        c.certificate.toList.flatMap (·.rules c)) := by
    simp [ProfileConfig.rules, config, HomeSp.rules, Credential.rules, ProfileConfig.empty]
  rw [hnames, hvariants]
  cases h with
  | user method inner authority named =>
    have hinner := Phase2.innerMethod?_mem inner
    simp [-List.mem_cons, leftOpen, config, Credential.ofRealm, UserCredential.rules,
      FirstBroken.cons_iff, FirstBroken.not_nil, hdomain, hinner]
  | certificate method authority named key keyNamed =>
    have hblank : Hex.IsText "" := ⟨List.forall_mem_nil _, rfl⟩
    simp [leftOpen, config, Credential.ofRealm, CertificateCredential.rules,
      FirstBroken.cons_iff, FirstBroken.not_nil, hdomain, hblank]
  | sim method number =>
    have heapType := mem_simEapTypes method
    simp [-List.mem_cons, leftOpen, config, Credential.ofRealm, SimCredential.rules,
      FirstBroken.cons_iff, FirstBroken.not_nil, hdomain, heapType]

theorem holds_leftOpen_iff (entry : Entry) (type : CredentialType) :
    (∀ rule ∈ entry.leftOpen type, rule.holds) ↔
      entry.friendlyName ≠ "" ∧ entry.enterprise.realm ≠ "" ∧ entry.enterprise.Filled type := by
  cases type <;> simp [leftOpen, Enterprise.Filled]

/-- The configuration of an import is complete, and then of the type of the import, just if it
    keeps to the rules that are left open. -/
theorem validate_config_eq_ok_iff (hdomain : entry.fqdn ≠ "")
    (h : entry.enterprise.StandsFor c type) {type' : CredentialType} :
    (entry.config c).validate = .ok type' ↔
      type' = type ∧ ∀ rule ∈ entry.leftOpen type, rule.holds := by
  have hbroken : (∃ d, (entry.config c).validate = .error d) ↔
      ¬∀ rule ∈ entry.leftOpen type, rule.holds := by
    simp only [ProfileConfig.validate_eq_error_iff, firstBroken_rules_iff hdomain h,
      FirstBroken.exists_iff, not_forall, exists_prop]
  cases hvalid : (entry.config c).validate with
  | error d =>
    have hnot := hbroken.1 ⟨d, hvalid⟩
    exact iff_of_false nofun fun ⟨_, hopen⟩ => hnot hopen
  | ok type'' =>
    have hopen : ∀ rule ∈ entry.leftOpen type, rule.holds := by
      by_contra hnot
      obtain ⟨d, hd⟩ := hbroken.2 hnot
      rw [hvalid] at hd
      cases hd
    obtain ⟨-, -, c', hc', hhas⟩ := ProfileConfig.coherent_of_validate hvalid
    obtain rfl := Option.some.inj hc'
    have htype : type'' = type := (has_iff h type'').1 ((hhas type'').2 rfl)
    rw [htype, and_iff_left hopen, Except.ok.injEq, eq_comm]

/-- **Which entries become profiles, and which of those validation would let through.**  An entry
    becomes a profile just if it has a domain and holds what its method needs.  The configuration
    says what the entry says and has a credential of the type of the method.  It is complete just
    if the names and what the type leaves to be filled in are there, and otherwise what is reported
    is the first rule that the import left open and that is broken. -/
theorem imports_validate_when_filled (entry : Entry) :
    ((∃ config type, entry.toProfileConfig = .ok (config, type)) ↔
      entry.fqdn ≠ "" ∧ ∃ type, entry.enterprise.Suffices type) ∧
    ∀ config type, entry.toProfileConfig = .ok (config, type) →
      entry.enterprise.Suffices type ∧ entry.CarriedOver config type ∧
      (∀ type', config.validate = .ok type' ↔ type' = type ∧
        entry.friendlyName ≠ "" ∧ entry.enterprise.realm ≠ "" ∧ entry.enterprise.Filled type) ∧
      (∀ d, config.validate = .error d ↔ FirstBroken (entry.leftOpen type) d) := by
  refine ⟨?_, ?_⟩
  · simp only [toProfileConfig_eq_ok_iff, ← Enterprise.exists_standsFor_iff]
    constructor
    · rintro ⟨_, type, hdomain, c, hc, -⟩
      exact ⟨hdomain, type, c, hc⟩
    · rintro ⟨hdomain, type, c, hc⟩
      exact ⟨_, type, hdomain, c, hc, rfl⟩
  · intro config type h
    obtain ⟨hdomain, c, hc, rfl⟩ := toProfileConfig_eq_ok_iff.1 h
    have hrealm : c.realm = entry.enterprise.realm := by cases hc <;> rfl
    refine ⟨Enterprise.exists_standsFor_iff.1 ⟨c, hc⟩, ⟨rfl, c, rfl, hrealm, has_iff hc⟩, ?_, ?_⟩
    · intro type'
      rw [validate_config_eq_ok_iff hdomain hc, holds_leftOpen_iff]
    · intro d
      rw [ProfileConfig.validate_eq_error_iff, firstBroken_rules_iff hdomain hc]

/-- Two entries that are imported as they are.  The one with a SIM card would be let through as a
    request too; the one with a client certificate is refused for its fingerprint alone. -/
theorem imports_validate_when_filled_certificate :
    let tls : Enterprise := {
      eapMethod := .tls, phase2 := .none, identity := "", password := "", realm := "realm",
      plmn := "", caAlias := some "ca", clientAlias := some "client" }
    let entry : Entry := {
      fqdn := "a.example", friendlyName := "Home", ois := [0x1BC5], creatorUid := 12,
      creatorPackage := "", enterprise := tls }
    let aka : Entry :=
      { entry with enterprise := { tls with eapMethod := .aka, plmn := "310410*" } }
    let config := entry.config { Credential.ofRealm "realm" with
      caCertificate := some "ca"
      clientCertificate := some "client"
      clientPrivateKey := some "client"
      certificate := some { type := "x509v3", fingerprint := "" } }
    let akaConfig := entry.config { Credential.ofRealm "realm" with
      sim := some { imsi := "310410*", eapType := 23 } }
    entry.toProfileConfig = .ok (config, .certificate) ∧ entry.CarriedOver config .certificate ∧
    config.validate = .error (.fingerprintLength 0) ∧
    aka.toProfileConfig = .ok (akaConfig, .sim) ∧ aka.CarriedOver akaConfig .sim ∧
    akaConfig.validate = .ok .sim := by
  intro tls entry aka config akaConfig
  have hread : entry.toProfileConfig = .ok (config, .certificate) := rfl
  have haka : aka.toProfileConfig = .ok (akaConfig, .sim) := rfl
  obtain ⟨-, hcarried, -, herror⟩ := (imports_validate_when_filled entry).2 _ _ hread
  obtain ⟨-, hcarriedAka, hok, -⟩ := (imports_validate_when_filled aka).2 _ _ haka
  have hbroken : FirstBroken (entry.leftOpen .certificate) (.fingerprintLength 0) :=
    .later (by decide) (.later (by decide) (.here id))
  have hdigits : ∀ c ∈ ['3', '1', '0', '4', '1', '0'], Char.isDigit c = true :=
    List.all_eq_true.1 rfl
  have himsi : IsImsi "310410*" := ⟨_, hdigits, by decide, Or.inr ⟨by decide, by decide⟩⟩
  exact ⟨hread, hcarried, (herror _).2 hbroken, haka, hcarriedAka,
    (hok .sim).2 ⟨rfl, by decide, by decide, himsi⟩⟩

end Entry

end Hotspot.Legacy
