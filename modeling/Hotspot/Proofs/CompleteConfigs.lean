/-
  Hotspot/Proofs/CompleteConfigs.lean
  ===================================
  **Which configurations are complete, and what is said of the others.**

  What a complete configuration looks like is told here without a word of how it is found out:
  one structure for each variant of credential, with the numbers and names written out
  (`ProfileConfig.Complete`).  Beside it stands the table of all rules in the order in which they
  are looked at (`ProfileConfig.rules`).  A rule about a part that is not there holds, so the
  table is one flat list, and what a caller hears is the first rule in it that is broken
  (`FirstBroken`).

  A check is a chain of rules, and so are its outcomes: a chain lets through what keeps to its
  first rule and is let through by the rest, and it reports the defect of its first rule or,
  if that rule is kept, what the rest reports.
-/
import Hotspot.Proofs.AddressText
import Hotspot.Proofs.Coherence

namespace Hotspot

/-! ### Texts -/

def Hex.IsDigit (c : Char) : Prop :=
  '0' ≤ c ∧ c ≤ '9' ∨ 'a' ≤ c ∧ c ≤ 'f' ∨ 'A' ≤ c ∧ c ≤ 'F'

/-- A text of hexadecimal digits that go together in pairs. -/
def Hex.IsText (text : String) : Prop :=
  (∀ c ∈ text.toList, Hex.IsDigit c) ∧ text.toList.length % 2 = 0

/-- A subscriber number: one to fifteen digits, or one to fourteen of them and a mask. -/
def IsImsi (text : String) : Prop :=
  ∃ digits, (∀ c ∈ digits, Char.isDigit c = true) ∧ 1 ≤ digits.length ∧
    (text.toList = digits ∧ digits.length ≤ 15 ∨
      text.toList = digits ++ ['*'] ∧ digits.length ≤ 14)

/-! ### The grammar -/

/-- A user credential as it has to be.  Only a configuration that mends an older one may leave
    the certificate authority out. -/
structure UserCredential.Complete (user : UserCredential) (c : Credential)
    (updateIdentifier : UInt32) : Prop where
  username : user.username ≠ ""
  password : user.password ≠ ""
  eapType : user.eapType = 21
  innerMethod : user.innerMethod = "PAP" ∨ user.innerMethod = "MS-CHAP" ∨
    user.innerMethod = "MS-CHAP-V2"
  authority : updateIdentifier = 0 → ∃ reference, c.caCertificate = some reference

structure SimCredential.Complete (sim : SimCredential) : Prop where
  imsi : IsImsi sim.imsi
  eapType : sim.eapType = 18 ∨ sim.eapType = 23 ∨ sim.eapType = 50

structure CertificateCredential.Complete (cert : CertificateCredential) (c : Credential) :
    Prop where
  type : cert.type = "x509v3"
  digits : ∀ x ∈ cert.fingerprint.toList, Hex.IsDigit x
  length : cert.fingerprint.toList.length = 64
  authority : ∃ reference, c.caCertificate = some reference
  certificate : ∃ reference, c.clientCertificate = some reference
  key : ∃ reference, c.clientPrivateKey = some reference

/-- A credential that holds one variant and no other, as that variant has to be. -/
inductive Credential.Complete (c : Credential) (updateIdentifier : UInt32) :
    CredentialType → Prop where
  | user (user : UserCredential) (set : c.user = some user) (noSim : c.sim = none)
      (noCertificate : c.certificate = none) (complete : user.Complete c updateIdentifier) :
      Complete c updateIdentifier .user
  | sim (sim : SimCredential) (noUser : c.user = none) (set : c.sim = some sim)
      (noCertificate : c.certificate = none) (complete : sim.Complete) :
      Complete c updateIdentifier .sim
  | certificate (cert : CertificateCredential) (noUser : c.user = none) (noSim : c.sim = none)
      (set : c.certificate = some cert) (complete : cert.Complete c) :
      Complete c updateIdentifier .certificate

/-- A configuration that names its provider and holds a complete credential of one type. -/
structure ProfileConfig.Complete (config : ProfileConfig) (type : CredentialType) : Prop where
  provider : ∃ sp, config.homeSp = some sp ∧ sp.fqdn ≠ "" ∧ sp.friendlyName ≠ ""
  credential : ∃ c, config.credential = some c ∧ c.realm ≠ "" ∧
    c.Complete config.updateIdentifier type

/-! ### The rules in their order -/

/-- What a configuration has to keep to, and the defect of breaking it. -/
structure Rule where
  defect : Defect
  holds : Prop

/-- The first rule of a list that is broken is the one of a defect. -/
inductive FirstBroken : List Rule → Defect → Prop where
  | here {rule : Rule} {rules : List Rule} (broken : ¬rule.holds) :
      FirstBroken (rule :: rules) rule.defect
  | later {rule : Rule} {rules : List Rule} {d : Defect} (kept : rule.holds)
      (next : FirstBroken rules d) : FirstBroken (rule :: rules) d

def UserCredential.rules (user : UserCredential) (c : Credential) (updateIdentifier : UInt32) :
    List Rule :=
  [⟨.missingUsername, user.username ≠ ""⟩,
   ⟨.missingPassword, user.password ≠ ""⟩,
   ⟨.userEapType user.eapType, user.eapType = 21⟩,
   ⟨.innerMethod user.innerMethod, user.innerMethod ∈ ["PAP", "MS-CHAP", "MS-CHAP-V2"]⟩,
   ⟨.missingCaCertificate, updateIdentifier ≠ 0 ∨ c.caCertificate ≠ none⟩]

def SimCredential.rules (sim : SimCredential) : List Rule :=
  [⟨.imsi sim.imsi, IsImsi sim.imsi⟩,
   ⟨.simEapType sim.eapType, sim.eapType ∈ [18, 23, 50]⟩]

/-- The rules for a certificate credential.  Two digits make a byte of the fingerprint. -/
def CertificateCredential.rules (cert : CertificateCredential) (c : Credential) : List Rule :=
  [⟨.certificateType cert.type, cert.type = "x509v3"⟩,
   ⟨.fingerprintNotHex, Hex.IsText cert.fingerprint⟩,
   ⟨.fingerprintLength (cert.fingerprint.toList.length / 2),
    cert.fingerprint.toList.length = 64⟩,
   ⟨.missingCaCertificate, c.caCertificate ≠ none⟩,
   ⟨.missingClientCertificate, c.clientCertificate ≠ none⟩,
   ⟨.missingClientPrivateKey, c.clientPrivateKey ≠ none⟩]

def Credential.variants (c : Credential) : List CredentialType :=
  [.user, .sim, .certificate].filter c.has

/-- The rules for a credential: those for how many variants it holds, then those for each of
    them. -/
def Credential.rules (c : Credential) (updateIdentifier : UInt32) : List Rule :=
  [⟨.noVariant, 1 ≤ c.variants.length⟩,
   ⟨.severalVariants, c.variants.length ≤ 1⟩] ++
  c.user.toList.flatMap (·.rules c updateIdentifier) ++
  c.sim.toList.flatMap (·.rules) ++
  c.certificate.toList.flatMap (·.rules c)

def HomeSp.rules (sp : HomeSp) : List Rule :=
  [⟨.missingFqdn, sp.fqdn ≠ ""⟩,
   ⟨.missingFriendlyName, sp.friendlyName ≠ ""⟩]

/-- All rules for a configuration, in the order in which they are looked at. -/
def ProfileConfig.rules (config : ProfileConfig) : List Rule :=
  [⟨.missingHomeSp, config.homeSp ≠ none⟩] ++
  config.homeSp.toList.flatMap HomeSp.rules ++
  [⟨.missingCredential, config.credential ≠ none⟩] ++
  config.credential.toList.flatMap fun c =>
    ⟨.missingRealm, c.realm ≠ ""⟩ :: c.rules config.updateIdentifier

/-! ### Digits -/

theorem Hex.digitValue?_isSome_iff (c : Char) :
    (Hex.digitValue? c).isSome = true ↔ Hex.IsDigit c := by
  unfold Hex.digitValue? Hex.IsDigit
  split
  · simp [*]
  · split
    · simp [*]
    · split <;> simp [*]

theorem Hex.byte?_isSome_iff (high low : Char) :
    (Hex.byte? high low).isSome = true ↔ Hex.IsDigit high ∧ Hex.IsDigit low := by
  rw [← Hex.digitValue?_isSome_iff, ← Hex.digitValue?_isSome_iff, Hex.byte?]
  cases Hex.digitValue? high <;> cases Hex.digitValue? low <;> simp

/-- Digits are read just if they go together in pairs, and each pair is a byte. -/
theorem Hex.decode?_isSome_iff (cs : List Char) :
    (Hex.decode? cs).isSome = true ↔ (∀ c ∈ cs, Hex.IsDigit c) ∧ cs.length % 2 = 0 := by
  induction cs using Hex.decode?.induct with
  | case1 => simp [Hex.decode?]
  | case2 c => simp [Hex.decode?]
  | case3 high low rest ih =>
    have hpair : (Hex.decode? (high :: low :: rest)).isSome = true ↔
        (Hex.byte? high low).isSome = true ∧ (Hex.decode? rest).isSome = true := by
      rw [Hex.decode?]
      cases Hex.byte? high low <;> cases Hex.decode? rest <;> simp
    rw [hpair, ih, Hex.byte?_isSome_iff]
    simp only [List.mem_cons, forall_eq_or_imp, List.length_cons, and_assoc]
    rw [show (rest.length + 1 + 1) % 2 = rest.length % 2 by omega]

theorem Hex.length_of_decode? {cs : List Char} {bytes : Bytes}
    (h : Hex.decode? cs = some bytes) : bytes.length = cs.length / 2 := by
  induction cs using Hex.decode?.induct generalizing bytes with
  | case1 =>
    cases h
    rfl
  | case2 c => cases h
  | case3 high low rest ih =>
    simp only [Hex.decode?, Option.bind_eq_bind, Option.bind_eq_some_iff, Option.some.injEq] at h
    obtain ⟨b, -, bs, hbs, rfl⟩ := h
    rw [List.length_cons, List.length_cons, List.length_cons, ih hbs]
    omega

namespace SimCredential

variable {sim : SimCredential} {digits : List Char}

theorem isMasked_iff : sim.isMasked = true ↔ ∃ digits, sim.imsi.toList = digits ++ ['*'] := by
  rw [isMasked, beq_iff_eq, List.getLast?_eq_some_iff]

theorem stem_of_mask (h : sim.imsi.toList = digits ++ ['*']) : sim.stem = digits := by
  rw [stem, if_pos (isMasked_iff.2 ⟨digits, h⟩), h, List.dropLast_concat]

theorem isMasked_eq_false_of_digits (h : ∀ c ∈ sim.imsi.toList, Char.isDigit c = true) :
    sim.isMasked = false := by
  rw [Bool.eq_false_iff]
  intro hmasked
  obtain ⟨digits, hmask⟩ := isMasked_iff.1 hmasked
  have hstar := h '*' (hmask ▸ by simp)
  exact absurd hstar (by decide)

theorem stem_of_digits (h : ∀ c ∈ sim.imsi.toList, Char.isDigit c = true) :
    sim.stem = sim.imsi.toList := by
  rw [stem, isMasked_eq_false_of_digits h, if_neg Bool.false_ne_true]

theorem hasValidImsi_iff : sim.hasValidImsi = true ↔ IsImsi sim.imsi := by
  simp only [hasValidImsi, Bool.and_eq_true, decide_eq_true_eq, Bool.not_eq_true',
    List.isEmpty_eq_false_iff, List.all_eq_true]
  constructor
  · rintro ⟨⟨hlength, hne⟩, hdigits⟩
    refine ⟨sim.stem, hdigits, List.length_pos_iff.2 hne, ?_⟩
    by_cases hmasked : sim.isMasked = true
    · obtain ⟨digits, hmask⟩ := isMasked_iff.1 hmasked
      rw [stem_of_mask hmask]
      rw [hmask, List.length_append, List.length_singleton] at hlength
      exact Or.inr ⟨hmask, by omega⟩
    · rw [stem, if_neg hmasked]
      exact Or.inl ⟨rfl, hlength⟩
  · rintro ⟨digits, hdigits, hpos, ⟨htext, hlength⟩ | ⟨hmask, hlength⟩⟩
    · rw [stem_of_digits (htext ▸ hdigits), htext]
      exact ⟨⟨hlength, List.length_pos_iff.1 hpos⟩, hdigits⟩
    · rw [stem_of_mask hmask, hmask, List.length_append, List.length_singleton]
      exact ⟨⟨by omega, List.length_pos_iff.1 hpos⟩, hdigits⟩

end SimCredential

/-! ### Chains of rules -/

namespace Defect

variable {d d' : Defect} {rule : Prop} [Decidable rule] {α β : Type} {part : Option α} {a : α}

theorem unless_eq_ok_iff : d.unless rule = .ok () ↔ rule := by
  rw [Defect.unless]
  split <;> simp [*]

theorem unless_eq_error_iff : d.unless rule = .error d' ↔ ¬rule ∧ d = d' := by
  rw [Defect.unless]
  split <;> simp [*]

theorem ifMissing_eq_ok_iff : d.ifMissing part = .ok a ↔ part = some a := by
  cases part <;> simp [ifMissing]

theorem ifMissing_eq_error_iff : d.ifMissing part = .error d' ↔ part = none ∧ d = d' := by
  cases part <;> simp [ifMissing]

theorem unless_bind_eq_ok_iff {f : Unit → Except Defect β} {b : β} :
    d.unless rule >>= f = .ok b ↔ rule ∧ f () = .ok b := by
  rw [bind_eq_ok_iff]
  exact ⟨fun ⟨_, hrule, h⟩ => ⟨unless_eq_ok_iff.1 hrule, h⟩,
    fun ⟨hrule, h⟩ => ⟨(), unless_eq_ok_iff.2 hrule, h⟩⟩

theorem unless_bind_eq_error_iff {f : Unit → Except Defect β} :
    d.unless rule >>= f = .error d' ↔ ¬rule ∧ d = d' ∨ rule ∧ f () = .error d' := by
  rw [bind_eq_error_iff, unless_eq_error_iff]
  exact or_congr_right ⟨fun ⟨_, hrule, h⟩ => ⟨unless_eq_ok_iff.1 hrule, h⟩,
    fun ⟨hrule, h⟩ => ⟨(), unless_eq_ok_iff.2 hrule, h⟩⟩

theorem ifMissing_bind_eq_ok_iff {f : α → Except Defect β} {b : β} :
    d.ifMissing part >>= f = .ok b ↔ ∃ a, part = some a ∧ f a = .ok b := by
  simp only [bind_eq_ok_iff, ifMissing_eq_ok_iff]

theorem ifMissing_bind_eq_error_iff {f : α → Except Defect β} :
    d.ifMissing part >>= f = .error d' ↔
      part = none ∧ d = d' ∨ ∃ a, part = some a ∧ f a = .error d' := by
  simp only [bind_eq_error_iff, ifMissing_eq_ok_iff, ifMissing_eq_error_iff]

end Defect

namespace FirstBroken

variable {d : Defect} {rule : Rule} {rules : List Rule}

theorem not_nil : ¬FirstBroken [] d := nofun

theorem cons_iff : FirstBroken (rule :: rules) d ↔
    ¬rule.holds ∧ rule.defect = d ∨ rule.holds ∧ FirstBroken rules d := by
  constructor
  · rintro (broken | ⟨kept, next⟩)
    · exact Or.inl ⟨broken, rfl⟩
    · exact Or.inr ⟨kept, next⟩
  · rintro (⟨broken, rfl⟩ | ⟨kept, next⟩)
    · exact here broken
    · exact later kept next

/-- Some rule of a list is broken just if one of them is the first. -/
theorem exists_iff : (∃ d, FirstBroken rules d) ↔ ∃ rule ∈ rules, ¬rule.holds := by
  induction rules with
  | nil => simp [not_nil]
  | cons rule rules ih =>
    by_cases hrule : rule.holds
    · simpa [cons_iff, hrule] using ih
    · simp only [List.mem_cons, exists_eq_or_imp, hrule, not_false_eq_true, true_or, iff_true]
      exact ⟨rule.defect, here hrule⟩

end FirstBroken

/-! ### The variants -/

namespace UserCredential

variable {user : UserCredential} {c : Credential} {updateIdentifier : UInt32} {d : Defect}

theorem validate_eq_ok_iff :
    user.validate c updateIdentifier = .ok () ↔ user.Complete c updateIdentifier := by
  simp only [validate, Defect.unless_bind_eq_ok_iff, Defect.unless_eq_ok_iff, userInnerMethods,
    List.mem_cons, List.not_mem_nil, or_false, Option.isSome_iff_exists]
  constructor
  · rintro ⟨username, password, eapType, innerMethod, authority⟩
    exact ⟨username, password, eapType, innerMethod, authority.resolve_left ∘ not_not_intro⟩
  · rintro ⟨username, password, eapType, innerMethod, authority⟩
    exact ⟨username, password, eapType, innerMethod, not_or_of_imp authority⟩

theorem validate_eq_error_iff :
    user.validate c updateIdentifier = .error d ↔
      FirstBroken (user.rules c updateIdentifier) d := by
  simp only [validate, rules, Defect.unless_bind_eq_error_iff, Defect.unless_eq_error_iff,
    FirstBroken.cons_iff, FirstBroken.not_nil, and_false, or_false, Option.isSome_iff_ne_none]
  exact Iff.rfl

end UserCredential

namespace SimCredential

variable {sim : SimCredential} {d : Defect}

theorem validate_eq_ok_iff : sim.validate = .ok () ↔ sim.Complete := by
  simp only [validate, Defect.unless_bind_eq_ok_iff, Defect.unless_eq_ok_iff, hasValidImsi_iff,
    simEapTypes, List.mem_cons, List.not_mem_nil, or_false]
  exact ⟨fun ⟨imsi, eapType⟩ => ⟨imsi, eapType⟩, fun ⟨imsi, eapType⟩ => ⟨imsi, eapType⟩⟩

theorem validate_eq_error_iff : sim.validate = .error d ↔ FirstBroken sim.rules d := by
  simp only [validate, rules, Defect.unless_bind_eq_error_iff, Defect.unless_eq_error_iff,
    FirstBroken.cons_iff, FirstBroken.not_nil, and_false, or_false, hasValidImsi_iff]
  exact Iff.rfl

end SimCredential

namespace CertificateCredential

variable {cert : CertificateCredential} {c : Credential} {d : Defect}

/-- The text of a fingerprint is read just if it is of digits in pairs, two for each byte. -/
theorem ofText?_fingerprint (cert : CertificateCredential) :
    (¬Hex.IsText cert.fingerprint ∧ Hex.ofText? cert.fingerprint = none) ∨
      (Hex.IsText cert.fingerprint ∧ ∃ bytes, Hex.ofText? cert.fingerprint = some bytes ∧
        bytes.length = cert.fingerprint.toList.length / 2 ∧
        (bytes.length = fingerprintSize ↔ cert.fingerprint.toList.length = 64)) := by
  have hread : (Hex.ofText? cert.fingerprint).isSome = true ↔ Hex.IsText cert.fingerprint :=
    Hex.decode?_isSome_iff _
  cases hbytes : Hex.ofText? cert.fingerprint with
  | none =>
    rw [hbytes] at hread
    exact Or.inl ⟨fun htext => Bool.false_ne_true (hread.2 htext), rfl⟩
  | some bytes =>
    rw [hbytes] at hread
    have htext := hread.1 rfl
    have hpairs := htext.2
    have hlength := Hex.length_of_decode? hbytes
    refine Or.inr ⟨htext, bytes, rfl, hlength, ?_⟩
    rw [fingerprintSize]
    omega

theorem validate_eq_ok_iff : cert.validate c = .ok () ↔ cert.Complete c := by
  simp only [validate, Defect.unless_bind_eq_ok_iff, Defect.ifMissing_bind_eq_ok_iff,
    Defect.unless_eq_ok_iff, Option.isSome_iff_exists]
  constructor
  · rintro ⟨type, bytes, hbytes, hsize, authority, certificate, key⟩
    obtain ⟨-, hnone⟩ | ⟨⟨digits, -⟩, bytes', hbytes', -, hlength⟩ := cert.ofText?_fingerprint
    · rw [hbytes] at hnone
      cases hnone
    · cases hbytes.symm.trans hbytes'
      exact ⟨type, digits, hlength.1 hsize, authority, certificate, key⟩
  · rintro ⟨type, digits, length, authority, certificate, key⟩
    obtain ⟨hodd, -⟩ | ⟨-, bytes, hbytes, -, hlength⟩ := cert.ofText?_fingerprint
    · exact absurd ⟨digits, by rw [length]⟩ hodd
    · exact ⟨type, bytes, hbytes, hlength.2 length, authority, certificate, key⟩

theorem validate_eq_error_iff : cert.validate c = .error d ↔ FirstBroken (cert.rules c) d := by
  simp only [validate, rules, Defect.unless_bind_eq_error_iff, Defect.unless_eq_error_iff,
    Defect.ifMissing_bind_eq_error_iff, FirstBroken.cons_iff, FirstBroken.not_nil, and_false,
    or_false, Option.isSome_iff_ne_none]
  refine or_congr_right (and_congr_right fun _ => ?_)
  obtain ⟨htext, hnone⟩ | ⟨htext, bytes, hbytes, hlength, hsize⟩ := cert.ofText?_fingerprint
  · simp [htext, hnone]
  · simp [htext, hbytes, ← hlength, hsize]

end CertificateCredential

/-! ### Configurations -/

namespace Credential

variable {c : Credential} {updateIdentifier : UInt32} {type : CredentialType} {d : Defect}

theorem validate_eq_ok_iff :
    c.validate updateIdentifier = .ok type ↔ c.Complete updateIdentifier type := by
  constructor
  · intro h
    unfold validate at h
    split at h
    · next user huser hsim hcert =>
      obtain ⟨_, hvalid, h⟩ := bind_eq_ok_iff.1 h
      cases h
      exact .user user huser hsim hcert (UserCredential.validate_eq_ok_iff.1 hvalid)
    · next sim huser hsim hcert =>
      obtain ⟨_, hvalid, h⟩ := bind_eq_ok_iff.1 h
      cases h
      exact .sim sim huser hsim hcert (SimCredential.validate_eq_ok_iff.1 hvalid)
    · next cert huser hsim hcert =>
      obtain ⟨_, hvalid, h⟩ := bind_eq_ok_iff.1 h
      cases h
      exact .certificate cert huser hsim hcert (CertificateCredential.validate_eq_ok_iff.1 hvalid)
    · cases h
    · cases h
  · rintro (⟨user, huser, hsim, hcert, complete⟩ | ⟨sim, huser, hsim, hcert, complete⟩ |
      ⟨cert, huser, hsim, hcert, complete⟩)
    · simp only [validate, huser, hsim, hcert]
      exact bind_eq_ok_iff.2 ⟨(), UserCredential.validate_eq_ok_iff.2 complete, rfl⟩
    · simp only [validate, huser, hsim, hcert]
      exact bind_eq_ok_iff.2 ⟨(), SimCredential.validate_eq_ok_iff.2 complete, rfl⟩
    · simp only [validate, huser, hsim, hcert]
      exact bind_eq_ok_iff.2 ⟨(), CertificateCredential.validate_eq_ok_iff.2 complete, rfl⟩

theorem validate_eq_error_iff :
    c.validate updateIdentifier = .error d ↔ FirstBroken (c.rules updateIdentifier) d := by
  -- the rules of a variant are reached only where it is the one that is held
  cases huser : c.user <;> cases hsim : c.sim <;> cases hcert : c.certificate <;>
    simp [validate, rules, variants, has, huser, hsim, hcert, FirstBroken.cons_iff,
      bind_eq_error_iff, UserCredential.validate_eq_error_iff, SimCredential.validate_eq_error_iff,
      CertificateCredential.validate_eq_error_iff]

end Credential

namespace ProfileConfig

variable {config : ProfileConfig} {type : CredentialType} {d : Defect}

theorem validate_eq_ok_iff : config.validate = .ok type ↔ config.Complete type := by
  simp only [validate, Defect.unless_bind_eq_ok_iff, Defect.ifMissing_bind_eq_ok_iff,
    Credential.validate_eq_ok_iff]
  constructor
  · rintro ⟨sp, hsp, fqdn, friendlyName, c, hc, realm, complete⟩
    exact ⟨⟨sp, hsp, fqdn, friendlyName⟩, c, hc, realm, complete⟩
  · rintro ⟨⟨sp, hsp, fqdn, friendlyName⟩, c, hc, realm, complete⟩
    exact ⟨sp, hsp, fqdn, friendlyName, c, hc, realm, complete⟩

theorem validate_eq_error_iff : config.validate = .error d ↔ FirstBroken config.rules d := by
  simp only [validate, Defect.unless_bind_eq_error_iff, Defect.ifMissing_bind_eq_error_iff,
    Credential.validate_eq_error_iff, rules]
  cases hsp : config.homeSp with
  | none => simp [FirstBroken.cons_iff]
  | some sp =>
    cases hc : config.credential with
    | none => simp [HomeSp.rules, FirstBroken.cons_iff]
    | some c => simp [HomeSp.rules, FirstBroken.cons_iff]

/-- A configuration is complete just if it keeps to every rule of the table. -/
theorem exists_complete_iff :
    (∃ type, config.Complete type) ↔ ∀ rule ∈ config.rules, rule.holds := by
  cases h : config.validate with
  | ok type =>
    refine iff_of_true ⟨type, validate_eq_ok_iff.1 h⟩ ?_
    by_contra hbroken
    push Not at hbroken
    obtain ⟨d, hd⟩ := FirstBroken.exists_iff.2 hbroken
    rw [← validate_eq_error_iff, h] at hd
    cases hd
  | error d =>
    refine iff_of_false ?_ ?_
    · rintro ⟨type, complete⟩
      rw [← validate_eq_ok_iff, h] at complete
      cases complete
    · obtain ⟨rule, hrule, hbroken⟩ := FirstBroken.exists_iff.1 ⟨d, validate_eq_error_iff.1 h⟩
      exact fun hkept => hbroken (hkept rule hrule)

/-- **Validation lets through the complete configurations and no others**, under the type of
    credential that they hold, and reports of any other the first rule that it breaks. -/
theorem validate_tells (config : ProfileConfig) :
    (∀ type, config.validate = .ok type ↔ config.Complete type) ∧
      (∀ d, config.validate = .error d ↔ FirstBroken config.rules d) ∧
      ((∃ type, config.Complete type) ↔ ∀ rule ∈ config.rules, rule.holds) :=
  ⟨fun _ => validate_eq_ok_iff, fun _ => validate_eq_error_iff, exists_complete_iff⟩

end ProfileConfig

end Hotspot
