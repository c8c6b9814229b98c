/-
  Hotspot/Profile/Credential.lean
  ===============================
  **What a subscriber proves their identity with.**

  A credential names the realm that will check it and holds one of three variants: user
  name and password, a SIM card, or a client certificate.  Certificates and keys are
  references into a secure store, not the material itself.
-/
import Hotspot.Json.Form

namespace Hotspot

/-! ### Authentication methods -/

/-- Number of an EAP method in the registry of such methods. -/
abbrev EapType := UInt8

namespace EapType

def tls : EapType := 13
def sim : EapType := 18
def ttls : EapType := 21
def aka : EapType := 23
def akaPrime : EapType := 50

end EapType

inductive CredentialType where
  | user
  | sim
  | certificate
deriving DecidableEq, Repr, Inhabited

namespace CredentialType

def word : CredentialType → String
  | .user => "user"
  | .sim => "sim"
  | .certificate => "certificate"

def name : CredentialType → String
  | .user => "User"
  | .sim => "Sim"
  | .certificate => "Certificate"

instance : JsonForm CredentialType where
  toJson t := .str t.name
  ofJson? j := do
    let name ← j.enumName?
    [user, sim, certificate].find? fun t => t.name == name

end CredentialType

/-! ### The variants -/

/-- A user name and a password, sent inside a protected tunnel. -/
structure UserCredential where
  username : String
  password : String
  eapType : EapType
  innerMethod : String
deriving DecidableEq, Repr

/-- A SIM card, by its subscriber number (IMSI) or the leading digits of it and a `*`. -/
structure SimCredential where
  imsi : String
  eapType : EapType
deriving DecidableEq, Repr

/-- A client certificate, by its type and the SHA-256 of its bytes in hexadecimal. -/
structure CertificateCredential where
  type : String
  fingerprint : String
deriving DecidableEq, Repr

namespace SimCredential

/-- Whether only the leading digits of the subscriber number are given. -/
def isMasked (c : SimCredential) : Bool := c.imsi.toList.getLast? == some '*'

/-- The subscriber number without the mask: all of it, or its leading digits. -/
def stem (c : SimCredential) : List Char :=
  if c.isMasked then c.imsi.toList.dropLast else c.imsi.toList

def fullImsi? (c : SimCredential) : Option String := if c.isMasked then none else some c.imsi

end SimCredential

structure Credential where
  realm : String
  caCertificate : Option String
  clientCertificate : Option String
  clientPrivateKey : Option String
  user : Option UserCredential
  sim : Option SimCredential
  certificate : Option CertificateCredential
deriving DecidableEq, Repr

namespace Credential

def ofRealm (realm : String) : Credential :=
  { realm, caCertificate := none, clientCertificate := none, clientPrivateKey := none,
    user := none, sim := none, certificate := none }

/-- The EAP method that a credential is used with; one without a user name or a SIM is
    taken for a certificate. -/
def eapType (c : Credential) : EapType :=
  match c.user, c.sim with
  | some user, _ => user.eapType
  | none, some sim => sim.eapType
  | none, none => .tls

end Credential

/-! ### JSON forms -/

instance : JsonForm UserCredential where
  toJson c := .obj [
    ("username", toJson c.username),
    ("password", toJson c.password),
    ("eap_type", toJson c.eapType),
    ("non_eap_inner_method", toJson c.innerMethod)]
  ofJson? j := do
    let ms ← j.fields? ["username", "password", "eap_type", "non_eap_inner_method"]
    some {
      username := ← ms.required "username" String
      password := ← ms.required "password" String
      eapType := ← ms.withDefault "eap_type" EapType.ttls
      innerMethod := ← ms.required "non_eap_inner_method" String }

instance : JsonForm SimCredential where
  toJson c := .obj [("imsi", toJson c.imsi), ("eap_type", toJson c.eapType)]
  ofJson? j := do
    let ms ← j.fields? ["imsi", "eap_type"]
    some { imsi := ← ms.required "imsi" String, eapType := ← ms.required "eap_type" EapType }

instance : JsonForm CertificateCredential where
  toJson c := .obj [
    ("cert_type", toJson c.type),
    ("cert_sha256_fingerprint", toJson c.fingerprint)]
  ofJson? j := do
    let ms ← j.fields? ["cert_type", "cert_sha256_fingerprint"]
    some {
      type := ← ms.required "cert_type" String
      fingerprint := ← ms.required "cert_sha256_fingerprint" String }

instance : JsonForm Credential where
  toJson c := .obj [
    ("realm", toJson c.realm),
    ("ca_certificate", toJson c.caCertificate),
    ("client_certificate", toJson c.clientCertificate),
    ("client_private_key", toJson c.clientPrivateKey),
    ("user", toJson c.user),
    ("sim", toJson c.sim),
    ("certificate", toJson c.certificate)]
  ofJson? j := do
    let ms ← j.fields? ["realm", "ca_certificate", "client_certificate", "client_private_key",
      "user", "sim", "certificate"]
    some {
      realm := ← ms.required "realm" String
      caCertificate := ← ms.withDefault "ca_certificate" none
      clientCertificate := ← ms.withDefault "client_certificate" none
      clientPrivateKey := ← ms.withDefault "client_private_key" none
      user := ← ms.withDefault "user" none
      sim := ← ms.withDefault "sim" none
      certificate := ← ms.withDefault "certificate" none }

end Hotspot
