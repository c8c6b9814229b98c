/-
  Hotspot/Radio/Beacon.lean
  =========================
  **The two information elements of a beacon that tell networks apart.**

  The *Hotspot 2.0 indication* is a vendor element (id 221) that starts with 50 6F 9A 10.
  A byte of flags follows, then a management object id and an ANQP domain id of two bytes
  each, less significant byte first, either of them only when flagged.

  The *Roaming Consortium* element (id 111) holds a count of further identifiers, one byte
  with the lengths of the first two organisation identifiers (low half first), and then up
  to three identifiers, the last of which takes all that is left.

  Elements come from the air: both may be cut off anywhere, and the reader then says how
  many bytes the first field that does not fit needs and how many there are.
-/
import Hotspot.Json.Form
import Hotspot.Radio.Bytes

namespace Hotspot

/-- An information element as received. -/
structure InformationElement where
  id : UInt8
  data : Bytes
deriving DecidableEq, Repr, Inhabited

/-- A field that does not fit into the bytes that are left. -/
structure Truncated where
  needed : Nat
  available : Nat
deriving DecidableEq, Repr

def Truncated.message (t : Truncated) : String :=
  "element truncated: need " ++ toString t.needed ++ " bytes, have " ++ toString t.available

instance : JsonForm InformationElement where
  toJson e := .obj [("id", toJson e.id), ("data", .str (Hex.toText e.data))]
  ofJson? j := do
    let ms ← j.fields? ["id", "data"]
    let id ← ms.required "id" UInt8
    let data ← ms.required "data" String
    some { id, data := ← Hex.ofText? data }

/-! ### The Hotspot 2.0 indication -/

/-- The release of the specification that an access point follows. -/
inductive Release where
  | r1
  | r2
  | r3
deriving DecidableEq, Repr

namespace Release

/-- The release in the high half of the flag byte; later numbers count as the third. -/
def ofFlags (flags : UInt8) : Release :=
  match flags.toNat / 16 with
  | 0 => .r1
  | 1 => .r2
  | _ => .r3

def name : Release → String
  | .r1 => "R1"
  | .r2 => "R2"
  | .r3 => "R3"

/-- From the second release on, a query may be narrowed to the home realm. -/
def hasHomeRealmQuery : Release → Bool
  | .r1 => false
  | .r2 => true
  | .r3 => true

end Release

/-- What the Hotspot 2.0 indication tells. -/
structure Indication where
  release : Release
  ppsMoId : Option UInt16
  domainId : Option UInt16
deriving DecidableEq, Repr

namespace Indication

/-- A two-byte field that is there when it is flagged, and the bytes after it. -/
def optionalField (flagged : Bool) : Bytes → Except Truncated (Option UInt16 × Bytes)
  | bytes =>
    if flagged then
      match bytes with
      | low :: high :: rest => .ok (some (Bytes.littleEndian16 low high), rest)
      | short => .error ⟨2, short.length⟩
    else .ok (none, bytes)

/-- The indication in the data of a vendor element whose first four bytes are known. -/
def read : Bytes → Except Truncated Indication
  | _ :: _ :: _ :: _ :: flags :: rest => do
    let (ppsMoId, rest) ← optionalField (flags &&& 0x02 != 0) rest
    let (domainId, _) ← optionalField (flags &&& 0x04 != 0) rest
    .ok { release := .ofFlags flags, ppsMoId, domainId }
  | short => .error ⟨5, short.length⟩

def isIndication (e : InformationElement) : Bool :=
  e.id == 221 && [0x50, 0x6F, 0x9A, 0x10].isPrefixOf e.data

/-- The indication among the elements of a beacon: the first one alone counts. -/
def find (es : List InformationElement) : Except Truncated (Option Indication) :=
  match es.find? isIndication with
  | none => .ok none
  | some e => (read e.data).map some

end Indication

/-! ### The Roaming Consortium element -/

/-- The organisation identifiers of roaming partners that an access point advertises. -/
structure RoamingConsortium where
  furtherCount : UInt8
  ois : List UInt64
deriving DecidableEq, Repr, Inhabited

namespace RoamingConsortium

/-- An identifier of a given length, none for length zero, and the bytes after it. -/
def readOi (length : Nat) (bytes : Bytes) : Except Truncated (List UInt64 × Bytes) :=
  if length = 0 then .ok ([], bytes)
  else if bytes.length < length then .error ⟨length, bytes.length⟩
  else .ok ([Bytes.bigEndian (bytes.take length)], bytes.drop length)

def read : Bytes → Except Truncated RoamingConsortium
  | furtherCount :: lengths :: rest => do
    let (first, rest) ← readOi (lengths.toNat % 16) rest
    let (second, rest) ← readOi (lengths.toNat / 16) rest
    let last := if rest.isEmpty then [] else [Bytes.bigEndian rest]
    .ok { furtherCount, ois := first ++ second ++ last }
  | short => .error ⟨2, short.length⟩

/-- The element among those of a beacon: the first one alone counts, and only when it can
    be read. -/
def find (es : List InformationElement) : Option RoamingConsortium := do
  let e ← es.find? fun e => e.id == 111
  (read e.data).toOption

end RoamingConsortium

instance : JsonForm RoamingConsortium where
  toJson rc := .obj [("anqp_oi_count", toJson rc.furtherCount), ("ois", toJson rc.ois)]
  ofJson? j := do
    let ms ← j.fields? ["anqp_oi_count", "ois"]
    some {
      furtherCount := ← ms.required "anqp_oi_count" UInt8
      ois := ← ms.required "ois" (List UInt64) }

end Hotspot
