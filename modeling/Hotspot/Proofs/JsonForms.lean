/-
  Hotspot/Proofs/JsonForms.lean
  =============================
  **Forms that read back what they write.**

  A form is lawful when every value of the type is written as a readable value, from which the
  form takes the same value again.  `null` stands for no value, so an optional form is lawful only
  over a type none of whose values is written as `null`.

  A record is written with its fields in their order, each once, so its members are those that it
  is read from (`fields?_obj`).  Each field looks for the first of them with its name: reading a
  written record is a chain of look-ups that skip other names (`required_of_ne`,
  `withDefault_of_ne`) and end at their own.
-/
import Mathlib.Data.List.Nodup
import Hotspot.Json.Form
import Hotspot.Proofs.JsonText
import Hotspot.Proofs.OrderedMap

namespace Hotspot

open Json

/-- A form that takes back every value it writes, and whose text is read back. -/
class LawfulJsonForm (α : Type) [JsonForm α] : Prop where
  readable : ∀ a : α, (toJson a).Readable
  ofJson?_toJson : ∀ a : α, ofJson? (toJson a) = some a

export LawfulJsonForm (ofJson?_toJson)

/-- A form that writes no value as `null`. -/
class NeverNull (α : Type) [JsonForm α] : Prop where
  toJson_ne_null : ∀ a : α, toJson a ≠ .null

attribute [simp] LawfulJsonForm.readable LawfulJsonForm.ofJson?_toJson

/-! ### Members of an object -/

namespace Json

@[simp] theorem members?_obj (ms : Members) : members? (.obj ms) = some ms := rfl

@[simp] theorem fields?_obj {names : List String} {ms : Members} (h : (ms.map Prod.fst).Nodup) :
    fields? names (.obj ms) = some ms := by
  refine if_pos (List.all_eq_true.2 fun name _ => decide_eq_true ?_)
  exact List.nodup_iff_count_le_one.1 h name

@[simp] theorem enumName?_str (name : String) : enumName? (.str name) = some name := rfl

namespace Members

variable {α : Type} [JsonForm α] {name name' : String} {ms : Members} {j : Json}

@[simp] theorem find?_of_ne (h : name ≠ name') : find? ((name', j) :: ms) name = ms.find? name := by
  rw [find?, List.lookup_cons, beq_false_of_ne h]
  rfl

@[simp] theorem find?_self : find? ((name, j) :: ms) name = some j := by
  rw [find?, List.lookup_cons, beq_self_eq_true]

@[simp] theorem required_self [LawfulJsonForm α] (a : α) :
    required ((name, toJson a) :: ms) name α = some a := by
  rw [required, find?_self]
  exact ofJson?_toJson a

@[simp] theorem required_of_ne (h : name ≠ name') :
    required ((name', j) :: ms) name α = ms.required name α := by
  rw [required, find?_of_ne h, required]

@[simp] theorem withDefault_self [LawfulJsonForm α] (a default : α) :
    withDefault ((name, toJson a) :: ms) name default = some a := by
  rw [withDefault, find?_self]
  exact ofJson?_toJson a

@[simp] theorem withDefault_of_ne (h : name ≠ name') (default : α) :
    withDefault ((name', j) :: ms) name default = ms.withDefault name default := by
  rw [withDefault, find?_of_ne h, withDefault]

end Members

end Json

/-! ### Basic types -/

instance : LawfulJsonForm String := ⟨readable_str, fun _ => rfl⟩
instance : NeverNull String := ⟨fun _ h => by cases h⟩

@[simp] theorem Json.Members.required_str (name s : String) (ms : Members) :
    required ((name, .str s) :: ms) name String = some s :=
  required_self s

instance : LawfulJsonForm Bool := ⟨readable_bool, fun _ => rfl⟩

theorem natBelow?_natCast {bound n : Nat} (h : n < bound) :
    natBelow? bound (.int n) = some n :=
  if_pos h

instance : LawfulJsonForm UInt8 where
  readable n := readable_int n.toNat
  ofJson?_toJson n := by
    show (natBelow? UInt8.size (.int n.toNat)).map UInt8.ofNat = some n
    rw [natBelow?_natCast n.toNat_lt, Option.map_some, UInt8.ofNat_toNat]

instance : LawfulJsonForm UInt16 where
  readable n := readable_int n.toNat
  ofJson?_toJson n := by
    show (natBelow? UInt16.size (.int n.toNat)).map UInt16.ofNat = some n
    rw [natBelow?_natCast n.toNat_lt, Option.map_some, UInt16.ofNat_toNat]

instance : LawfulJsonForm UInt32 where
  readable n := readable_int n.toNat
  ofJson?_toJson n := by
    show (natBelow? UInt32.size (.int n.toNat)).map UInt32.ofNat = some n
    rw [natBelow?_natCast n.toNat_lt, Option.map_some, UInt32.ofNat_toNat]

instance : LawfulJsonForm UInt64 where
  readable n := readable_int n.toNat
  ofJson?_toJson n := by
    show (natBelow? UInt64.size (.int n.toNat)).map UInt64.ofNat = some n
    rw [natBelow?_natCast n.toNat_lt, Option.map_some, UInt64.ofNat_toNat]

instance : LawfulJsonForm Int32 where
  readable n := readable_int n.toInt
  ofJson?_toJson n := by
    have hlow := n.le_toInt
    have hhigh := n.toInt_lt
    show (if -0x80000000 ≤ n.toInt ∧ n.toInt < 0x80000000 then some (Int32.ofInt n.toInt)
      else none) = some n
    rw [if_pos ⟨hlow, hhigh⟩, Int32.ofInt_toInt]

instance : NeverNull UInt64 := ⟨fun _ h => by cases h⟩
instance : NeverNull UInt16 := ⟨fun _ h => by cases h⟩
instance : NeverNull Int32 := ⟨fun _ h => by cases h⟩

variable {α : Type} [JsonForm α] [LawfulJsonForm α]

instance [NeverNull α] : LawfulJsonForm (Option α) where
  readable
    | none => readable_null
    | some a => LawfulJsonForm.readable a
  ofJson?_toJson
    | none => rfl
    | some a => by
      show (match toJson a with | .null => some none | j => (ofJson? j).map some) = some (some a)
      split
      · rename_i hnull
        exact absurd hnull (NeverNull.toJson_ne_null a)
      · rw [ofJson?_toJson, Option.map_some]

instance : LawfulJsonForm (List α) where
  readable as := readable_arr fun j hj => by
    obtain ⟨a, -, rfl⟩ := List.mem_map.1 hj
    exact LawfulJsonForm.readable a
  ofJson?_toJson := mapM_map_eq_some ofJson?_toJson

instance : LawfulJsonForm (OrderedMap String α) where
  readable m := readable_obj fun e he => by
    obtain ⟨e, -, rfl⟩ := List.mem_map.1 he
    exact LawfulJsonForm.readable e.2
  ofJson?_toJson m := by
    have hentries : (m.entries.map fun e => (e.1, toJson e.2)).mapM
        (fun e => (ofJson? e.2 : Option α).map fun a => (e.1, a)) = some m.entries := by
      refine mapM_map_eq_some (fun e => ?_) m.entries
      rw [ofJson?_toJson, Option.map_some]
    show ((m.entries.map fun e => (e.1, toJson e.2)).mapM
        (fun e => (ofJson? e.2 : Option α).map fun a => (e.1, a))).map OrderedMap.ofList = some m
    rw [hentries, Option.map_some, OrderedMap.ofList_entries]

end Hotspot
