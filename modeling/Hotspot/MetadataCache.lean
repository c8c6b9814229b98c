/-
  Hotspot/MetadataCache.lean
  ==========================
  **Metadata remembered by identity key.**

  A snapshot is never refreshed in place: a new answer takes its place, and a sweep evicts
  it once it has reached the age of staleness.  Between sweeps a stale snapshot still
  answers.
-/
import Hotspot.Millis
import Hotspot.Radio.Anqp
import Hotspot.Radio.IdentityKey

namespace Hotspot

structure Snapshot where
  capturedAt : Millis
  elements : Anqp.Elements
deriving DecidableEq

/-- Whether a snapshot has reached the age of staleness. -/
def Snapshot.isStale (s : Snapshot) (now staleness : Millis) : Bool :=
  staleness ≤ Millis.elapsed s.capturedAt now

/-- The snapshots by identity key. -/
abbrev MetadataCache := OrderedMap IdentityKey Snapshot

namespace MetadataCache

def store (c : MetadataCache) (now : Millis) (key : IdentityKey) (es : Anqp.Elements) :
    MetadataCache :=
  c.insert key { capturedAt := now, elements := es }

def fresh (c : MetadataCache) (now staleness : Millis) : MetadataCache :=
  c.filter fun _ s => !s.isStale now staleness

def sweep (c : MetadataCache) (now staleness : Millis) : Nat × MetadataCache :=
  (c.size - (c.fresh now staleness).size, c.fresh now staleness)

end MetadataCache

end Hotspot
