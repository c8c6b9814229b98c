/-
  Hotspot/RequestTracker.lean
  ===========================
  **Which access points are being asked, and which must be left alone for now.**

  An access point is asked once at a time.  Every request also starts a hold-off: until it
  ends, the access point is not asked again.  Each further request doubles the hold-off up
  to a limit; an answer forgets it, a failure does not.  An access point that has not been
  tried for longer than the longest hold-off after its hold-off ended is forgotten too.
-/
import Hotspot.Radio.IdentityKey
import Hotspot.Settings

namespace Hotspot

/-- A request without an answer yet: the key it was made for and when. -/
structure PendingRequest where
  key : IdentityKey
  issuedAt : Millis
deriving DecidableEq, Repr

/-- How often an access point was asked again, and until when it is left alone. -/
structure HoldOff where
  retries : UInt32
  expiresAt : Millis
deriving DecidableEq, Repr

/-- The length of the hold-off after `retries` repetitions: the base doubled that often.
    Sixty-four doublings of anything but zero are past the latest time. -/
def RequestSettings.holdOff (s : RequestSettings) (retries : UInt32) : Millis :=
  Millis.clamp (s.baseHoldOff.toNat <<< min retries.toNat 64)

/-- The longest hold-off. -/
def RequestSettings.grace (s : RequestSettings) : Millis := s.holdOff s.maxRetries

/-- The requests without an answer and the hold-offs, by radio address. -/
structure RequestTracker where
  pending : OrderedMap MacAddress PendingRequest
  holdOffs : OrderedMap MacAddress HoldOff
deriving DecidableEq

namespace RequestTracker

def empty : RequestTracker := { pending := .empty, holdOffs := .empty }

/-- Whether an access point has no hold-off on record. -/
def isFirstAttempt (t : RequestTracker) (bssid : MacAddress) : Bool :=
  !t.holdOffs.contains bssid

def isHeldOff (t : RequestTracker) (now : Millis) (bssid : MacAddress) : Bool :=
  match t.holdOffs.get? bssid with
  | some h => now < h.expiresAt
  | none => false

def mayRequest (t : RequestTracker) (now : Millis) (bssid : MacAddress) : Bool :=
  !t.pending.contains bssid && !t.isHeldOff now bssid

def nextRetries (s : RequestSettings) : Option HoldOff → UInt32
  | none => 0
  | some h => if h.retries < s.maxRetries then h.retries + 1 else h.retries

def issue (t : RequestTracker) (s : RequestSettings) (now : Millis) (bssid : MacAddress)
    (key : IdentityKey) : RequestTracker :=
  let retries := nextRetries s (t.holdOffs.get? bssid)
  { pending := t.pending.insert bssid { key, issuedAt := now }
    holdOffs := t.holdOffs.insert bssid
      { retries, expiresAt := Millis.after now (s.holdOff retries) } }

/-- Retire the request to an access point that was answered or failed; the result is the
    key it was made for.  Without such a request nothing changes. -/
def complete (t : RequestTracker) (bssid : MacAddress) (success : Bool) :
    Option IdentityKey × RequestTracker :=
  match t.pending.get? bssid with
  | none => (none, t)
  | some request =>
    (some request.key,
     { pending := t.pending.erase bssid
       holdOffs := if success then t.holdOffs.erase bssid else t.holdOffs })

/-- The hold-offs worth keeping: those of requests without an answer, and those that ended
    no longer ago than the longest one. -/
def keptHoldOffs (t : RequestTracker) (s : RequestSettings) (now : Millis) :
    OrderedMap MacAddress HoldOff :=
  t.holdOffs.filter fun bssid h =>
    t.pending.contains bssid || now < Millis.after h.expiresAt s.grace

def prune (t : RequestTracker) (s : RequestSettings) (now : Millis) : Nat × RequestTracker :=
  (t.holdOffs.size - (t.keptHoldOffs s now).size, { t with holdOffs := t.keptHoldOffs s now })

end RequestTracker

end Hotspot
