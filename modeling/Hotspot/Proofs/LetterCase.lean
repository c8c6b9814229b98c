/-
  Hotspot/Proofs/LetterCase.lean
  ==============================
  **Texts that differ in the case of letters.**

  Only the letters of ASCII have two cases here.  Whatever is done to the case of a letter leaves
  its lower case as it was, so the texts that are the same but for letter case are those with one
  lower case.
-/
import Mathlib
import Hotspot.Matching.Verdict

namespace Hotspot

namespace Text

/-- What holds of the 128 characters of ASCII, seen one by one. -/
theorem forall_ascii {P : Char → Prop} (h : ∀ n < 128, P (Char.ofNat n)) {c : Char}
    (hc : c.toNat < 128) : P c := by
  have hP := h c.toNat hc
  rwa [Char.ofNat_toNat] at hP

theorem toLower_of_not_ascii {c : Char} (hc : ¬c.toNat < 128) : c.toLower = c := by
  have hupper : ¬(c.val ≥ 'A'.val ∧ c.val ≤ 'Z'.val) := by
    rintro ⟨-, hZ⟩
    have hle : c.toNat ≤ 90 := hZ
    omega
  exact dif_neg hupper

theorem toUpper_of_not_ascii {c : Char} (hc : ¬c.toNat < 128) : c.toUpper = c := by
  have hlower : ¬('a'.val ≤ c.val ∧ c.val ≤ 'z'.val) := by
    rintro ⟨-, hz⟩
    have hle : c.toNat ≤ 122 := hz
    omega
  exact dif_neg hlower

/-- A character is again one of the two cases of either of its cases. -/
theorem eq_case_of_case (c : Char) :
    (c = c.toLower.toLower ∨ c = c.toLower.toUpper) ∧
      (c = c.toUpper.toLower ∨ c = c.toUpper.toUpper) := by
  by_cases hc : c.toNat < 128
  · exact forall_ascii (P := fun c => (c = c.toLower.toLower ∨ c = c.toLower.toUpper) ∧
      (c = c.toUpper.toLower ∨ c = c.toUpper.toUpper)) (by decide) hc
  · rw [toLower_of_not_ascii hc, toUpper_of_not_ascii hc, toLower_of_not_ascii hc,
      toUpper_of_not_ascii hc]
    exact ⟨Or.inl rfl, Or.inl rfl⟩

end Text

/-! ### Names -/

variable {a b c : String}

theorem sameName_iff : sameName a b = true ↔ a.toList.map Char.toLower = b.toList.map Char.toLower :=
  beq_iff_eq

theorem sameName_refl (a : String) : sameName a a = true := sameName_iff.2 rfl

theorem sameName_symm (h : sameName a b = true) : sameName b a = true :=
  sameName_iff.2 (sameName_iff.1 h).symm

theorem sameName_trans (hab : sameName a b = true) (hbc : sameName b c = true) :
    sameName a c = true :=
  sameName_iff.2 ((sameName_iff.1 hab).trans (sameName_iff.1 hbc))

theorem sameName_equivalence : Equivalence fun a b => sameName a b = true :=
  ⟨sameName_refl, sameName_symm, sameName_trans⟩

theorem eq_empty_iff_of_sameName (h : sameName a b = true) : a = "" ↔ b = "" := by
  have hlength := congrArg List.length (sameName_iff.1 h)
  simp only [List.length_map] at hlength
  rw [← String.toList_eq_nil_iff, ← String.toList_eq_nil_iff, ← List.length_eq_zero_iff, hlength,
    List.length_eq_zero_iff]

/-- A text with some of its letters put in the other case. -/
def Recased (a b : String) : Prop :=
  List.Forall₂ (fun x y => y = x ∨ y = x.toLower ∨ y = x.toUpper) a.toList b.toList

/-- A change of letter case does not make another name. -/
theorem Recased.sameName (h : Recased a b) : sameName a b = true := by
  rw [sameName_iff, ← List.forall₂_eq_eq_eq, List.forall₂_map_left_iff, List.forall₂_map_right_iff]
  refine h.imp ?_
  rintro x y (rfl | rfl | rfl)
  · rfl
  · exact x.toLower_toLower_eq_toLower.symm
  · exact x.toLower_toUpper_eq_toLower.symm

theorem Recased.symm (h : Recased a b) : Recased b a := by
  refine List.Forall₂.flip (h.imp ?_)
  rintro x y (rfl | rfl | rfl)
  · exact Or.inl rfl
  · exact Or.inr (Text.eq_case_of_case x).1
  · exact Or.inr (Text.eq_case_of_case x).2

end Hotspot
