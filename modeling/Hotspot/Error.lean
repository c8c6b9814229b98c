/-
  Hotspot/Error.lean
  ==================
  **What can go wrong with a profile operation.**

  The platform reports failures of its own; the manager passes them on inside an error
  that says which step of an operation they ended.
-/
import Hotspot.Legacy.Conversion

namespace Hotspot

inductive PlatformError where
  | unavailable (text : String)
  | rejected (text : String)
deriving DecidableEq, Repr

def PlatformError.message : PlatformError → String
  | .unavailable text => "collaborator unavailable: " ++ text
  | .rejected text => "collaborator rejected request: " ++ text

inductive ErrorKind where
  | validation
  | trust
  | ownership
  | install
  | notFound
  | store
deriving DecidableEq, Repr

namespace ErrorKind

def all : List ErrorKind := [.validation, .trust, .ownership, .install, .notFound, .store]

def name : ErrorKind → String
  | .validation => "Validation"
  | .trust => "Trust"
  | .ownership => "Ownership"
  | .install => "Install"
  | .notFound => "NotFound"
  | .store => "Store"

def wording (detail : String) : ErrorKind → String
  | .validation => "invalid profile: " ++ detail
  | .trust => "CA certificate verification failed: " ++ detail
  | .ownership => "caller is not authorized to modify profile " ++ detail
  | .install => "credential installation failed: " ++ detail
  | .notFound => "profile not found: " ++ detail
  | .store => "store error: " ++ detail

end ErrorKind

inductive ProfileError where
  | invalid (defect : Defect)
  | unusable (reason : Legacy.Unusable)
  | untrusted (cause : PlatformError)
  | notOwner (fqdn : String)
  | notInstalled (cause : PlatformError)
  | notFound (fqdn : String)
  | notStored (cause : PlatformError)
deriving DecidableEq, Repr

namespace ProfileError

def kind : ProfileError → ErrorKind
  | .invalid _ => .validation
  | .unusable _ => .validation
  | .untrusted _ => .trust
  | .notOwner _ => .ownership
  | .notInstalled _ => .install
  | .notFound _ => .notFound
  | .notStored _ => .store

def detail : ProfileError → String
  | .invalid defect => defect.message
  | .unusable reason => reason.message
  | .untrusted cause => cause.message
  | .notOwner fqdn => fqdn
  | .notInstalled cause => cause.message
  | .notFound fqdn => fqdn
  | .notStored cause => cause.message

def message (e : ProfileError) : String := e.kind.wording e.detail

end ProfileError

end Hotspot
