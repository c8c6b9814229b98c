/-
  Hotspot/Json/Form.lean
  ======================
  **The JSON form of a type.**

  A type that is stored or exchanged has one form: how a value is written, and which JSON
  values are read as one.  A record is written as an object.  It is read from an object, in
  which no field may stand twice and members with other names are skipped, and from an array
  with the values of the fields in their order, which may end before the last of them.

  A field is required, or falls back to a default when it is absent.  An optional value is
  written as `null` when there is none, so an optional field may say `null` where any other
  field must not.
-/
import Hotspot.Json.Reader
import Hotspot.OrderedMap

namespace Hotspot

/-- How values of a type are written and read as JSON. -/
class JsonForm (α : Type) where
  toJson : α → Json
  ofJson? : Json → Option α

export JsonForm (toJson ofJson?)

namespace Json

/-! ### Members of an object -/

def members? : Json → Option Members
  | .obj members => some members
  | _ => none

/-- The members that a record with these fields is read from. -/
def fields? (names : List String) : Json → Option Members
  | .obj members =>
    if names.all fun name => (members.map Prod.fst).count name ≤ 1 then some members else none
  | .arr values => if values.length ≤ names.length then some (names.zip values) else none
  | _ => none

namespace Members

def find? (ms : Members) (name : String) : Option Json := ms.lookup name

def required (ms : Members) (name : String) (α : Type) [JsonForm α] : Option α := do
  ofJson? (← ms.find? name)

/-- A field that may be left out, with its value in that case. -/
def withDefault (ms : Members) (name : String) {α : Type} [JsonForm α] (default : α) : Option α :=
  match ms.find? name with
  | none => some default
  | some j => ofJson? j

end Members

/-- The name of a value of an enumeration: a string, or the same name as the only member
    of an object, with `null`. -/
def enumName? : Json → Option String
  | .str name => some name
  | .obj [(name, .null)] => some name
  | _ => none

def natBelow? (bound : Nat) : Json → Option Nat
  | .int (.ofNat n) => if n < bound then some n else none
  | _ => none

end Json

open Json

/-! ### Forms of the basic types -/

instance : JsonForm String where
  toJson := .str
  ofJson?
    | .str s => some s
    | _ => none

instance : JsonForm Bool where
  toJson := .bool
  ofJson?
    | .bool b => some b
    | _ => none

instance : JsonForm UInt8 where
  toJson n := .int n.toNat
  ofJson? j := (natBelow? UInt8.size j).map UInt8.ofNat

instance : JsonForm UInt16 where
  toJson n := .int n.toNat
  ofJson? j := (natBelow? UInt16.size j).map UInt16.ofNat

instance : JsonForm UInt32 where
  toJson n := .int n.toNat
  ofJson? j := (natBelow? UInt32.size j).map UInt32.ofNat

instance : JsonForm UInt64 where
  toJson n := .int n.toNat
  ofJson? j := (natBelow? UInt64.size j).map UInt64.ofNat

instance : JsonForm Int32 where
  toJson n := .int n.toInt
  ofJson?
    | .int n => if -0x80000000 ≤ n ∧ n < 0x80000000 then some (Int32.ofInt n) else none
    | _ => none

instance {α : Type} [JsonForm α] : JsonForm (Option α) where
  toJson
    | none => .null
    | some a => toJson a
  ofJson?
    | .null => some none
    | j => (ofJson? j).map some

instance {α : Type} [JsonForm α] : JsonForm (List α) where
  toJson as := .arr (as.map toJson)
  ofJson?
    | .arr items => items.mapM ofJson?
    | _ => none

/-- A map with text for keys is an object; of two members with one name the later counts. -/
instance {α : Type} [JsonForm α] : JsonForm (OrderedMap String α) where
  toJson m := .obj (m.entries.map fun e => (e.1, toJson e.2))
  ofJson?
    | .obj members =>
      (members.mapM fun m => (ofJson? m.2).map fun a => (m.1, a)).map OrderedMap.ofList
    | _ => none

def readAs? (α : Type) [JsonForm α] (text : String) : Option α := (Json.parse? text) >>= ofJson?

end Hotspot
