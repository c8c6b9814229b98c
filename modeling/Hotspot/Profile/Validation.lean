/-
  Hotspot/Profile/Validation.lean
  ===============================
  **Which configurations are complete.**

  A complete configuration names its provider and holds exactly one variant of credential,
  and that variant obeys its own rules.  Rules are tried in a fixed order; the defect that
  is reported is the first one in that order, so a caller who mends it sees the next.
-/
import Hotspot.Profile.Config
import Hotspot.Text.Hex
import Hotspot.Text.Quoted

namespace Hotspot

/-- What is wrong with a configuration. -/
inductive Defect where
  | missingConfiguration
  | missingHomeSp
  | missingFqdn
  | missingFriendlyName
  | missingCredential
  | missingRealm
  | noVariant
  | severalVariants
  | missingUsername
  | missingPassword
  | userEapType (n : EapType)
  | innerMethod (name : String)
  | missingCaCertificate
  | imsi (text : String)
  | simEapType (n : EapType)
  | certificateType (name : String)
  | fingerprintNotHex
  | fingerprintLength (bytes : Nat)
  | missingClientCertificate
  | missingClientPrivateKey
deriving DecidableEq, Repr

def fingerprintSize : Nat := 32

def Defect.message : Defect → String
  | .missingConfiguration => "missing configuration"
  | .missingHomeSp => "missing home SP"
  | .missingFqdn => "missing home SP FQDN"
  | .missingFriendlyName => "missing home SP friendly name"
  | .missingCredential => "missing credential"
  | .missingRealm => "missing credential realm"
  | .noVariant => "no credential variant set"
  | .severalVariants => "more than one credential variant set"
  | .missingUsername => "missing username"
  | .missingPassword => "missing password"
  | .userEapType n => "EAP method " ++ toString n.toNat ++ " not allowed for a user credential"
  | .innerMethod name => "unsupported inner method " ++ Text.quoted name
  | .missingCaCertificate => "missing CA certificate"
  | .imsi text => "invalid IMSI " ++ Text.quoted text
  | .simEapType n => "EAP method " ++ toString n.toNat ++ " not allowed for a SIM credential"
  | .certificateType name => "unsupported certificate type " ++ Text.quoted name
  | .fingerprintNotHex => "fingerprint is not hex"
  | .fingerprintLength bytes =>
    "fingerprint must be " ++ toString fingerprintSize ++ " bytes, got " ++ toString bytes
  | .missingClientCertificate => "missing client certificate"
  | .missingClientPrivateKey => "missing client private key"

/-! ### Rules -/

/-- A rule that holds, or the defect of breaking it. -/
def Defect.unless (d : Defect) (rule : Prop) [Decidable rule] : Except Defect Unit :=
  if rule then .ok () else .error d

def Defect.ifMissing {α : Type} (d : Defect) : Option α → Except Defect α
  | some a => .ok a
  | none => .error d

def userInnerMethods : List String := ["PAP", "MS-CHAP", "MS-CHAP-V2"]

def simEapTypes : List EapType := [.sim, .aka, .akaPrime]

def x509v3 : String := "x509v3"

/-- Digits, at least one, with at most fifteen characters together with the mask. -/
def SimCredential.hasValidImsi (c : SimCredential) : Bool :=
  c.imsi.toList.length ≤ 15 && !c.stem.isEmpty && c.stem.all Char.isDigit

/-- The rules for a user credential.  A configuration that mends an older one may leave
    the certificate authority out. -/
def UserCredential.validate (user : UserCredential) (c : Credential) (updateIdentifier : UInt32) :
    Except Defect Unit := do
  Defect.missingUsername.unless (user.username ≠ "")
  Defect.missingPassword.unless (user.password ≠ "")
  (Defect.userEapType user.eapType).unless (user.eapType = .ttls)
  (Defect.innerMethod user.innerMethod).unless (user.innerMethod ∈ userInnerMethods)
  Defect.missingCaCertificate.unless (updateIdentifier ≠ 0 ∨ c.caCertificate.isSome)

def SimCredential.validate (sim : SimCredential) : Except Defect Unit := do
  (Defect.imsi sim.imsi).unless sim.hasValidImsi
  (Defect.simEapType sim.eapType).unless (sim.eapType ∈ simEapTypes)

def CertificateCredential.validate (cert : CertificateCredential) (c : Credential) :
    Except Defect Unit := do
  (Defect.certificateType cert.type).unless (cert.type = x509v3)
  let bytes ← Defect.fingerprintNotHex.ifMissing (Hex.ofText? cert.fingerprint)
  (Defect.fingerprintLength bytes.length).unless (bytes.length = fingerprintSize)
  Defect.missingCaCertificate.unless c.caCertificate.isSome
  Defect.missingClientCertificate.unless c.clientCertificate.isSome
  Defect.missingClientPrivateKey.unless c.clientPrivateKey.isSome

/-- The variant of a credential that holds exactly one, by the rules of that variant. -/
def Credential.validate (c : Credential) (updateIdentifier : UInt32) :
    Except Defect CredentialType :=
  match c.user, c.sim, c.certificate with
  | some user, none, none => do
    user.validate c updateIdentifier
    .ok .user
  | none, some sim, none => do
    sim.validate
    .ok .sim
  | none, none, some cert => do
    cert.validate c
    .ok .certificate
  | none, none, none => .error .noVariant
  | _, _, _ => .error .severalVariants

/-- The credential variant of a complete configuration, or the first defect. -/
def ProfileConfig.validate (c : ProfileConfig) : Except Defect CredentialType := do
  let sp ← Defect.missingHomeSp.ifMissing c.homeSp
  Defect.missingFqdn.unless (sp.fqdn ≠ "")
  Defect.missingFriendlyName.unless (sp.friendlyName ≠ "")
  let credential ← Defect.missingCredential.ifMissing c.credential
  Defect.missingRealm.unless (credential.realm ≠ "")
  credential.validate c.updateIdentifier

end Hotspot
