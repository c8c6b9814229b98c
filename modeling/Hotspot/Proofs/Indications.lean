/-
  Hotspot/Proofs/Indications.lean
  ===============================
  **The layout of a Hotspot 2.0 indication.**

  Four bytes of heading, which tell an indication from other elements, then the flags, and then the
  two fields that the flags announce, each of two bytes when it is announced and of none
  otherwise.  What follows them does not count.  An indication can be read just if its data are
  laid out so, and then says what stands there (`read_eq_ok_iff`).
-/
import Hotspot.Proofs.Outcomes
import Hotspot.Radio.Beacon

namespace Hotspot.Indication

/-- The bytes of a field and what they say, by whether it is flagged. -/
inductive Field : Bool → Bytes → Option UInt16 → Prop
  | absent : Field false [] none
  | present (low high : UInt8) : Field true [low, high] (some (Bytes.littleEndian16 low high))

/-- The data of an indication and what they say. -/
inductive Layout : Bytes → Indication → Prop
  | fields {heading mo domain rest : Bytes} {flags : UInt8} {ppsMoId domainId : Option UInt16}
      (hheading : heading.length = 4)
      (hmo : Field (flags &&& 0x02 != 0) mo ppsMoId)
      (hdomain : Field (flags &&& 0x04 != 0) domain domainId) :
      Layout (heading ++ flags :: (mo ++ (domain ++ rest)))
        { release := .ofFlags flags, ppsMoId, domainId }

theorem optionalField_eq_ok_iff {flagged : Bool} {bytes rest : Bytes} {value : Option UInt16} :
    optionalField flagged bytes = .ok (value, rest) ↔
      ∃ field, Field flagged field value ∧ bytes = field ++ rest := by
  constructor
  · intro h
    cases flagged with
    | false =>
      cases h
      exact ⟨[], .absent, rfl⟩
    | true =>
      match bytes, h with
      | low :: high :: rest, h =>
        cases h
        exact ⟨[low, high], .present low high, rfl⟩
  · rintro ⟨field, hfield, rfl⟩
    cases hfield <;> rfl

/-- **What can be read**, and what it says. -/
theorem read_eq_ok_iff {data : Bytes} {i : Indication} : read data = .ok i ↔ Layout data i := by
  constructor
  · intro h
    match data, h with
    | b₀ :: b₁ :: b₂ :: b₃ :: flags :: bytes, h =>
      obtain ⟨⟨ppsMoId, bytes'⟩, hread, h⟩ := bind_eq_ok_iff.1 h
      obtain ⟨⟨domainId, rest⟩, hread', h⟩ := bind_eq_ok_iff.1 h
      cases h
      obtain ⟨mo, hmo, rfl⟩ := optionalField_eq_ok_iff.1 hread
      obtain ⟨domain, hdomain, rfl⟩ := optionalField_eq_ok_iff.1 hread'
      have hheading : [b₀, b₁, b₂, b₃].length = 4 := rfl
      exact .fields hheading hmo hdomain
  · rintro ⟨hheading, hmo, hdomain⟩
    rename_i heading mo domain rest flags ppsMoId domainId
    match heading, hheading with
    | [b₀, b₁, b₂, b₃], _ =>
      refine bind_eq_ok_iff.2 ⟨_, optionalField_eq_ok_iff.2 ⟨mo, hmo, rfl⟩, ?_⟩
      exact bind_eq_ok_iff.2 ⟨_, optionalField_eq_ok_iff.2 ⟨domain, hdomain, rfl⟩, rfl⟩

end Hotspot.Indication
