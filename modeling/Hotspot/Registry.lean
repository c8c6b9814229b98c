/-
  Hotspot/Registry.lean
  =====================
  **The installed profiles, one for each home domain.**

  This is the bookkeeping alone; `Hotspot/Manager/Profiles.lean` adds who may change what
  and what the platform is told.  The next number to give only grows: it is taken with
  every profile, and a restored state raises it above every number in that state.
-/
import Hotspot.Profile.Descriptor

namespace Hotspot

/-- The installed profiles by home domain, and the number that the next one gets. -/
structure Registry where
  profiles : OrderedMap String Profile
  nextIndex : UInt64
deriving DecidableEq

namespace Registry

def empty : Registry := { profiles := .empty, nextIndex := 0 }

def get? (r : Registry) (fqdn : String) : Option Profile := r.profiles.get? fqdn

/-- Enter a profile under its home domain, in place of one that is there. -/
def insert (r : Registry) (p : Profile) : Registry :=
  { r with profiles := r.profiles.insert p.fqdn p }

def erase (r : Registry) (fqdn : String) : Registry :=
  { r with profiles := r.profiles.erase fqdn }

def modify (r : Registry) (fqdn : String) (f : Profile → Profile) : Registry :=
  { r with profiles := r.profiles.modify fqdn f }

def takeIndex (r : Registry) : Registry := { r with nextIndex := r.nextIndex + 1 }

def hasSavedBy (r : Registry) (package : String) : Bool :=
  r.profiles.values.any fun p => p.isSavedBy package

def savedBy (r : Registry) (package : String) : List Profile :=
  r.profiles.values.filter fun p => p.isSavedBy package

def eraseSavedBy (r : Registry) (package : String) : Registry :=
  { r with profiles := r.profiles.filter fun _ p => !p.isSavedBy package }

/-- The configurations of the user's profiles that a caller may see: its own, or all of
    them if it is privileged. -/
def visibleTo (r : Registry) (uid : UInt32) (privileged : Bool) : List ProfileConfig :=
  (r.profiles.values.filter fun p => p.isSaved && (privileged || p.owner.uid == uid)).map
    (·.config)

def descriptorsFor (r : Registry) (fqdns : List String) : List NetworkDescriptor :=
  (fqdns.filterMap r.get?).map (·.descriptor)

/-! ### Stored state -/

def toState (r : Registry) : PersistedState :=
  { profiles := r.profiles.values, nextIndex := r.nextIndex }

def larger (a b : UInt64) : UInt64 := if a < b then b else a

/-- The registry with the profiles of a stored state; of two of one home domain the later
    stays.  Its next number is above every number in the state and never falls. -/
def restore (r : Registry) (s : PersistedState) : Registry :=
  { profiles := .ofList (s.profiles.map fun p => (p.fqdn, p))
    nextIndex := s.profiles.foldl (fun n p => larger n (p.index + 1))
      (larger r.nextIndex s.nextIndex) }

end Registry

end Hotspot
