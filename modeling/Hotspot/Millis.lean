/-
  Hotspot/Millis.lean
  ===================
  **Times and durations in milliseconds.**

  Times are 64-bit counts.  Sums and products that would leave the range stop at its end,
  and the distance to a time that lies in the future is zero, so a clock that is set back
  never makes anything look old.
-/

namespace Hotspot

/-- A time or a duration in milliseconds. -/
abbrev Millis := UInt64

namespace Millis

def latest : Nat := UInt64.size - 1

def clamp (n : Nat) : Millis := UInt64.ofNat (min n latest)

/-- The time `d` after `t`, at most the latest time. -/
def after (t d : Millis) : Millis := clamp (t.toNat + d.toNat)

/-- The duration from `start` to `now`, zero when `start` lies in the future. -/
def elapsed (start now : Millis) : Millis := UInt64.ofNat (now.toNat - start.toNat)

theorem toNat_clamp (n : Nat) : (clamp n).toNat = min n latest := by
  rw [clamp, UInt64.toNat_ofNat', latest, UInt64.size]
  omega

theorem toNat_after (t d : Millis) : (after t d).toNat = min (t.toNat + d.toNat) latest :=
  toNat_clamp _

theorem toNat_elapsed (start now : Millis) :
    (elapsed start now).toNat = now.toNat - start.toNat := by
  rw [elapsed, UInt64.toNat_ofNat']
  have := now.toNat_lt
  omega

end Millis

end Hotspot
