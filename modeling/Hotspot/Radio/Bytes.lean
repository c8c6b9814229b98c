/-
  Hotspot/Radio/Bytes.lean
  ========================
  **Numbers in byte strings.**
-/
import Hotspot.Text.Hex

namespace Hotspot.Bytes

/-- The number whose most significant byte comes first, modulo 2^64. -/
def bigEndian (bytes : Bytes) : UInt64 :=
  bytes.foldl (fun n b => n * 256 + b.toUInt64) 0

def littleEndian16 (low high : UInt8) : UInt16 := low.toUInt16 + 256 * high.toUInt16

end Hotspot.Bytes
