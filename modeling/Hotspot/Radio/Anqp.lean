/-
  Hotspot/Radio/Anqp.lean
  =======================
  **Metadata that an access point gives about itself (ANQP elements).**

  An answer is a collection of elements, at most one of each kind.  Most are lists of
  names; the roaming consortium is a list of organisation identifiers.
-/
import Hotspot.Json.Form

namespace Hotspot.Anqp

open Std Json

/-- The kinds of elements that are understood. -/
inductive Kind where
  | venueName
  | roamingConsortium
  | naiRealm
  | threeGppNetwork
  | domainName
  | hsFriendlyName
deriving DecidableEq, Repr

namespace Kind

def all : List Kind :=
  [.venueName, .roamingConsortium, .naiRealm, .threeGppNetwork, .domainName, .hsFriendlyName]

def rank : Kind → Nat
  | .venueName => 0
  | .roamingConsortium => 1
  | .naiRealm => 2
  | .threeGppNetwork => 3
  | .domainName => 4
  | .hsFriendlyName => 5

instance : Ord Kind := ⟨compareOn rank⟩

instance : TransOrd Kind := inferInstanceAs (TransCmp (compareOn rank))

instance : LawfulEqOrd Kind where
  compare_self := compare_self (α := Nat)
  eq_of_compare {a b} h := by
    have hr : a.rank = b.rank := Std.compare_eq_iff_eq.1 h
    cases a <;> cases b <;> simp_all [rank]

def name : Kind → String
  | .venueName => "VenueName"
  | .roamingConsortium => "RoamingConsortium"
  | .naiRealm => "NaiRealm"
  | .threeGppNetwork => "ThreeGppNetwork"
  | .domainName => "DomainName"
  | .hsFriendlyName => "HsFriendlyName"

def ofName? (name : String) : Option Kind := all.find? fun k => k.name == name

theorem ofName?_name (k : Kind) : ofName? k.name = some k := by
  cases k <;> decide

end Kind

inductive Element where
  | venueName (names : List String)
  | roamingConsortium (ois : List UInt64)
  | naiRealm (realms : List String)
  | threeGppNetwork (plmns : List String)
  | domainName (domains : List String)
  | hsFriendlyName (names : List String)
deriving DecidableEq, Repr

namespace Element

def kind : Element → Kind
  | .venueName _ => .venueName
  | .roamingConsortium _ => .roamingConsortium
  | .naiRealm _ => .naiRealm
  | .threeGppNetwork _ => .threeGppNetwork
  | .domainName _ => .domainName
  | .hsFriendlyName _ => .hsFriendlyName

def names : Element → List String
  | .venueName names => names
  | .roamingConsortium _ => []
  | .naiRealm realms => realms
  | .threeGppNetwork plmns => plmns
  | .domainName domains => domains
  | .hsFriendlyName names => names

def ois : Element → List UInt64
  | .roamingConsortium ois => ois
  | _ => []

def content : Element → Json
  | .roamingConsortium ois => toJson ois
  | e => toJson e.names

def ofContent? (content : Json) : Kind → Option Element
  | .venueName => (ofJson? content).map venueName
  | .roamingConsortium => (ofJson? content).map roamingConsortium
  | .naiRealm => (ofJson? content).map naiRealm
  | .threeGppNetwork => (ofJson? content).map threeGppNetwork
  | .domainName => (ofJson? content).map domainName
  | .hsFriendlyName => (ofJson? content).map hsFriendlyName

instance : JsonForm Element where
  toJson e := .obj [("type", .str e.kind.name), ("value", e.content)]
  ofJson?
    -- an array has the name of the kind as a text, and in no other way
    | .arr [.str name, content] => do ofContent? content (← Kind.ofName? name)
    | .obj members => do
      let ms ← fields? ["type", "value"] (.obj members)
      let kind ← (← ms.find? "type").enumName? >>= Kind.ofName?
      ofContent? (← ms.find? "value") kind
    | _ => none

end Element

/-- Elements by kind.  A collection built from answers holds every element under its own
    kind; one read from storage may hold another element there. -/
abbrev Elements := OrderedMap Kind Element

namespace Elements

/-- The collection of a list of elements; of two of one kind the later counts. -/
def ofList (es : List Element) : Elements := OrderedMap.ofList (es.map fun e => (e.kind, e))

def names (es : Elements) (k : Kind) : List String :=
  match es.get? k with
  | some e => e.names
  | none => []

def ois (es : Elements) : List UInt64 :=
  match es.get? .roamingConsortium with
  | some e => e.ois
  | none => []

end Elements

instance : JsonForm Elements where
  toJson es := .obj (es.entries.map fun e => (e.1.name, toJson e.2))
  ofJson? j := do
    let entries ← (← j.members?).mapM fun m => do
      some (← Kind.ofName? m.1, ← (ofJson? m.2 : Option Element))
    some (OrderedMap.ofList entries)

end Hotspot.Anqp
