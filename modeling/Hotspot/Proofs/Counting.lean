/-
  Hotspot/Proofs/Counting.lean
  ============================
  **How many keys a map has.**

  The size of a map is the number of its keys, and what a filter takes off it is the number of
  keys that are gone.
-/
import Mathlib.Data.Set.Card
import Hotspot.Proofs.OrderedMap

namespace Hotspot.OrderedMap

open Std

variable {κ ν : Type} [Ord κ] [TransOrd κ] [LawfulEqOrd κ]

omit [TransOrd κ] in
theorem nodup_keys (m : OrderedMap κ ν) : m.keys.Nodup := by
  rw [keys, List.Nodup, List.pairwise_map]
  exact m.increasing.imp ne_of_compare_eq_lt

theorem size_eq_ncard (m : OrderedMap κ ν) : m.size = {k | m.contains k = true}.ncard := by
  classical
  have hkeys : {k | m.contains k = true} = (m.keys.toFinset : Set κ) := by
    ext k
    simp [mem_keys_iff]
  rw [hkeys, Set.ncard_coe_finset, List.toFinset_card_of_nodup m.nodup_keys, keys,
    List.length_map, size]

theorem contains_of_contains_filter {p : κ → ν → Bool} {m : OrderedMap κ ν} {k : κ}
    (h : (m.filter p).contains k = true) : m.contains k = true := by
  rw [contains_eq_true_iff] at h ⊢
  obtain ⟨v, hv⟩ := h
  rw [get?_filter, Option.filter_eq_some_iff] at hv
  exact ⟨v, hv.1⟩

theorem size_sub_size_filter (p : κ → ν → Bool) (m : OrderedMap κ ν) :
    m.size - (m.filter p).size =
      {k | m.contains k = true ∧ (m.filter p).contains k = false}.ncard := by
  have hgone : {k | m.contains k = true ∧ (m.filter p).contains k = false} =
      {k | m.contains k = true} \ {k | (m.filter p).contains k = true} := by
    ext k
    simp
  have hpart : {k | (m.filter p).contains k = true} ⊆ {k | m.contains k = true} :=
    fun k hk => contains_of_contains_filter hk
  have hfinite : {k | (m.filter p).contains k = true}.Finite := by
    apply (m.filter p).keys.finite_toSet.subset
    intro k hk
    exact mem_keys_iff.2 hk
  rw [hgone, Set.ncard_sdiff hpart hfinite, ← size_eq_ncard, ← size_eq_ncard]

end Hotspot.OrderedMap
