/-
  Hotspot/Legacy/Conversion.lean
  ==============================
  **From a legacy entry to the configuration of a profile.**

  The certificates and keys of an entry are in the secure store already, so the
  configuration refers to them by their aliases there.  An entry knows no fingerprint of
  its client certificate, and the configuration made of it has an empty one; importing an
  entry therefore asks less of it than installing a configuration does.
-/
import Hotspot.Legacy.Entry
import Hotspot.Profile.Validation

namespace Hotspot.Legacy

/-- Why an entry cannot become a profile. -/
inductive Unusable where
  | missingFqdn
  | phase2 (m : Phase2)
  | missingCaAlias
  | missingClientAlias
  | missingPlmn
  | eapMethod (m : EapMethod)
deriving DecidableEq, Repr

def Unusable.message : Unusable → String
  | .missingFqdn => "legacy entry without FQDN"
  | .phase2 m => "unsupported phase 2 method " ++ m.word
  | .missingCaAlias => "missing CA certificate alias"
  | .missingClientAlias => "missing client certificate alias"
  | .missingPlmn => "SIM entry without PLMN"
  | .eapMethod m => "unsupported EAP method " ++ m.word

def requireAlias (reason : Unusable) : Option String → Except Unusable String
  | some name => if name = "" then .error reason else .ok name
  | none => .error reason

namespace Enterprise

def userCredential (e : Enterprise) : Except Unusable Credential :=
  match e.phase2.innerMethod? with
  | none => .error (.phase2 e.phase2)
  | some innerMethod => do
    let ca ← requireAlias .missingCaAlias e.caAlias
    .ok { Credential.ofRealm e.realm with
      caCertificate := some ca
      user := some {
        username := e.identity, password := e.password, eapType := .ttls, innerMethod } }

/-- The certificate credential of an entry; its key shares the alias of its certificate. -/
def certificateCredential (e : Enterprise) : Except Unusable Credential := do
  let ca ← requireAlias .missingCaAlias e.caAlias
  let client ← requireAlias .missingClientAlias e.clientAlias
  .ok { Credential.ofRealm e.realm with
    caCertificate := some ca
    clientCertificate := some client
    clientPrivateKey := some client
    certificate := some { type := x509v3, fingerprint := "" } }

def simCredential (e : Enterprise) (eapType : EapType) : Except Unusable Credential :=
  if e.plmn = "" then .error .missingPlmn
  else .ok { Credential.ofRealm e.realm with sim := some { imsi := e.plmn, eapType } }

def credential (e : Enterprise) : Except Unusable (Credential × CredentialType) :=
  match e.eapMethod with
  | .ttls => e.userCredential.map (·, .user)
  | .tls => e.certificateCredential.map (·, .certificate)
  | .sim => (e.simCredential .sim).map (·, .sim)
  | .aka => (e.simCredential .aka).map (·, .sim)
  | .akaPrime => (e.simCredential .akaPrime).map (·, .sim)
  | .peap => .error (.eapMethod .peap)
  | .pwd => .error (.eapMethod .pwd)

end Enterprise

def Entry.toProfileConfig (e : Entry) : Except Unusable (ProfileConfig × CredentialType) :=
  if e.fqdn = "" then .error .missingFqdn
  else do
    let (credential, type) ← e.enterprise.credential
    .ok ({ ProfileConfig.empty with
      homeSp := some { fqdn := e.fqdn, friendlyName := e.friendlyName, ois := e.ois }
      credential := some credential }, type)

end Hotspot.Legacy
