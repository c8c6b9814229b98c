/-
  Hotspot/Radio/MacAddress.lean
  =============================
  **Radio addresses and their text.**

  The text of an address is its six octets, most significant first, as two hexadecimal
  digits each with colons between them.  Reading takes both letter cases and says what is
  wrong with a text that is no address: the number of parts if that is not six, else the
  first part that is not two digits.
-/
import Hotspot.Json.Form
import Hotspot.Radio.Bytes
import Hotspot.Text.Quoted

namespace Hotspot

open Std

/-- The 48-bit address of a radio (BSSID).  Addresses read from text and those made by
    `ofBits` are below 2^48; all 64 bits take part in comparisons. -/
structure MacAddress where
  value : UInt64
deriving DecidableEq, Repr, Inhabited

namespace MacAddress

instance : Ord MacAddress := ⟨compareOn MacAddress.value⟩

instance : TransOrd MacAddress := inferInstanceAs (TransCmp (compareOn MacAddress.value))

instance : LawfulEqOrd MacAddress where
  compare_self := compare_self (α := UInt64)
  eq_of_compare {a b} h := by
    have hv : a.value = b.value := Std.compare_eq_iff_eq.1 h
    cases a; cases b; simp_all

/-- The address in the low 48 bits of a number. -/
def ofBits (n : UInt64) : MacAddress := ⟨n &&& 0xFFFFFFFFFFFF⟩

def octets (a : MacAddress) : Bytes :=
  ([40, 32, 24, 16, 8, 0] : List UInt64).map fun shift => (a.value >>> shift).toUInt8

def toChars (a : MacAddress) : List Char := [':'].intercalate (a.octets.map Hex.ofByte)

/-- The text: lower-case octets with colons between them. -/
def toText (a : MacAddress) : String := String.ofList a.toChars

/-- Why a text is no address. -/
inductive ReadError where
  | wrongLength (parts : Nat)
  | invalidOctet (part : String)
deriving DecidableEq, Repr

namespace ReadError

def kind : ReadError → String
  | .wrongLength _ => "WrongLength"
  | .invalidOctet _ => "InvalidOctet"

def message : ReadError → String
  | .wrongLength parts => "expected 6 octets, found " ++ toString parts
  | .invalidOctet part => "invalid octet: " ++ Text.quoted part

end ReadError

def octet? : List Char → Except ReadError UInt8
  | [high, low] =>
    match Hex.byte? high low with
    | some b => .ok b
    | none => .error (.invalidOctet (String.ofList [high, low]))
  | part => .error (.invalidOctet (String.ofList part))

def ofChars? (cs : List Char) : Except ReadError MacAddress :=
  let parts := cs.splitOn ':'
  if parts.length = 6 then
    (parts.mapM octet?).map fun bytes => ⟨Bytes.bigEndian bytes⟩
  else .error (.wrongLength parts.length)

def ofText? (text : String) : Except ReadError MacAddress := ofChars? text.toList

instance : JsonForm MacAddress where
  toJson a := .str a.toText
  ofJson?
    | .str text => (ofText? text).toOption
    | _ => none

end MacAddress

end Hotspot
