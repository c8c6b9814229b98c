/-
  Hotspot/Proofs/Pieces.lean
  ==========================
  **What lies between the separators of a text.**

  Characters are their pieces with separators between them, and no other pieces that are free of
  separators make them up: cutting finds just these (`Pieces.iff_eq_splitOn`).
-/

namespace Hotspot

/-- The pieces of characters between separators. -/
structure Pieces (separator : Char) (cs : List Char) (pieces : List (List Char)) : Prop where
  nonempty : pieces ≠ []
  apart : ∀ piece ∈ pieces, separator ∉ piece
  joined : cs = [separator].intercalate pieces

namespace Pieces

variable {separator : Char} {cs piece : List Char} {pieces : List (List Char)}

theorem notMem_of_mem_splitOn (h : piece ∈ cs.splitOn separator) : separator ∉ piece := by
  induction cs generalizing piece with
  | nil =>
    rw [List.splitOn_nil, List.mem_singleton] at h
    exact h ▸ List.not_mem_nil
  | cons c cs ih =>
    rw [List.splitOn_cons_eq_if_modifyHead] at h
    by_cases hc : c = separator
    · rw [if_pos (beq_iff_eq.2 hc)] at h
      rcases List.mem_cons.1 h with rfl | h
      · exact List.not_mem_nil
      · exact ih h
    · rw [if_neg (mt beq_iff_eq.1 hc)] at h
      obtain ⟨first, others, heq⟩ := List.exists_cons_of_ne_nil (List.splitOn_ne_nil separator cs)
      rw [heq] at ih
      rw [heq, List.modifyHead_cons] at h
      rcases List.mem_cons.1 h with rfl | h
      · rw [List.mem_cons, not_or]
        exact ⟨Ne.symm hc, ih List.mem_cons_self⟩
      · exact ih (List.mem_cons_of_mem first h)

theorem iff_eq_splitOn : Pieces separator cs pieces ↔ pieces = cs.splitOn separator := by
  constructor
  · rintro ⟨nonempty, apart, rfl⟩
    exact (List.splitOn_intercalate separator apart nonempty).symm
  · rintro rfl
    exact ⟨List.splitOn_ne_nil separator cs, fun _ => notMem_of_mem_splitOn,
      (List.intercalate_splitOn separator).symm⟩

/-- Cutting goes with a change of characters that makes and loses no separators. -/
theorem splitOn_map {f : Char → Char} (hf : ∀ c, f c = separator ↔ c = separator)
    (cs : List Char) :
    (cs.map f).splitOn separator = (cs.splitOn separator).map (List.map f) := by
  induction cs with
  | nil => simp [List.splitOn_nil]
  | cons c cs ih =>
    rw [List.map_cons, List.splitOn_cons_eq_if_modifyHead, List.splitOn_cons_eq_if_modifyHead, ih]
    simp only [beq_iff_eq, hf]
    split
    · rfl
    · cases cs.splitOn separator <;> rfl

end Pieces

end Hotspot
