/-
  Hotspot/Proofs/OrderedMap.lean
  ==============================
  **Ordered maps as sets of values.**

  `Hotspot/OrderedMap.lean` says what each operation does to a look-up.  Here are the other
  views of a map that the manager uses: which keys it has, which values it holds and how
  many, and that a map is the map of its own entries (`ofList_entries`), which is what makes
  a stored registry come back as it was.
-/
import Hotspot.OrderedMap

namespace Hotspot.OrderedMap

open Std

variable {κ ν : Type} [Ord κ]

/-! ### What is there, by key and by value -/

theorem contains_eq_true_iff {m : OrderedMap κ ν} {k : κ} :
    m.contains k = true ↔ ∃ v, m.get? k = some v := by
  rw [contains, Option.isSome_iff_exists]

theorem values_filter (p : ν → Bool) (m : OrderedMap κ ν) :
    (m.filter fun _ v => p v).values = m.values.filter p := by
  rw [values, values, filter, List.filter_map]
  rfl

theorem values_mapValues {μ : Type} (f : ν → μ) (m : OrderedMap κ ν) :
    (m.mapValues fun _ v => f v).values = m.values.map f := by
  rw [values, values, mapValues, List.map_map, List.map_map]
  rfl

theorem length_values (m : OrderedMap κ ν) : m.values.length = m.size :=
  List.length_map ..

/-- What a filter keeps and what it drops are together all there is. -/
theorem size_filter_add (p : ν → Bool) (m : OrderedMap κ ν) :
    (m.filter fun _ v => !p v).size + (m.values.filter p).length = m.size := by
  rw [← length_values, ← length_values, values_filter, Nat.add_comm,
    ← List.countP_eq_length_filter, ← List.countP_eq_length_filter,
    List.length_eq_countP_add_countP p]
  congr 2
  funext v
  cases p v <;> rfl

section Lawful

variable [TransOrd κ] [LawfulEqOrd κ]

theorem contains_insert [DecidableEq κ] (m : OrderedMap κ ν) (k k' : κ) (v : ν) :
    (m.insert k v).contains k' = (decide (k' = k) || m.contains k') := by
  rw [contains, contains, get?_insert]
  by_cases h : k' = k
  · rw [if_pos h, decide_eq_true h]; rfl
  · rw [if_neg h, decide_eq_false h, Bool.false_or]

theorem contains_erase [DecidableEq κ] (m : OrderedMap κ ν) (k k' : κ) :
    (m.erase k).contains k' = (decide (k' ≠ k) && m.contains k') := by
  rw [contains, contains, get?_erase]
  by_cases h : k' = k
  · rw [if_pos h, decide_eq_false (fun hc => hc h)]; rfl
  · rw [if_neg h, decide_eq_true h, Bool.true_and]

theorem mem_keys_iff {m : OrderedMap κ ν} {k : κ} : k ∈ m.keys ↔ m.contains k = true := by
  rw [contains_eq_true_iff, keys, List.mem_map]
  constructor
  · rintro ⟨⟨k', v⟩, he, rfl⟩
    exact ⟨v, mem_entries_iff.1 he⟩
  · rintro ⟨v, hv⟩
    exact ⟨(k, v), mem_entries_iff.2 hv, rfl⟩

omit [TransOrd κ] in
theorem ne_of_compare_eq_lt {a b : κ} (h : compare a b = .lt) : a ≠ b := by
  intro hab
  rw [hab, compare_self] at h
  cases h

theorem mem_values_iff {m : OrderedMap κ ν} {v : ν} :
    v ∈ m.values ↔ ∃ k, m.get? k = some v := by
  rw [values, List.mem_map]
  constructor
  · rintro ⟨⟨k, w⟩, he, rfl⟩
    exact ⟨k, mem_entries_iff.1 he⟩
  · rintro ⟨k, hk⟩
    exact ⟨(k, v), mem_entries_iff.2 hk, rfl⟩

/-- Values that tell their own key do not repeat in anything that tells the key. -/
theorem pairwise_values {m : OrderedMap κ ν} {key : ν → κ}
    (hkey : ∀ k v, m.get? k = some v → key v = k) :
    m.values.Pairwise fun v w => key v ≠ key w := by
  rw [values, List.pairwise_map]
  refine m.increasing.imp_of_mem ?_
  intro a b ha hb hlt
  rw [hkey a.1 a.2 (mem_entries_iff.1 ha), hkey b.1 b.2 (mem_entries_iff.1 hb)]
  exact ne_of_compare_eq_lt hlt

/-- A map over few keys has the entries that its look-ups tell, in the order of the keys. -/
theorem entries_eq_filterMap (all : List κ) (hall : all.Pairwise fun a b => compare a b = .lt)
    (hmem : ∀ k, k ∈ all) (m : OrderedMap κ ν) :
    m.entries = all.filterMap fun k => (m.get? k).map fun v => (k, v) := by
  have hsorted : (all.filterMap fun k => (m.get? k).map fun v => (k, v)).Pairwise
      fun a b => compare a.1 b.1 = .lt := by
    rw [List.pairwise_filterMap]
    refine hall.imp fun {k k'} hlt e he e' he' => ?_
    obtain ⟨v, -, rfl⟩ := Option.map_eq_some_iff.1 he
    obtain ⟨v', -, rfl⟩ := Option.map_eq_some_iff.1 he'
    exact hlt
  have hsame : m = ⟨_, hsorted⟩ := by
    apply ext_get?
    intro k
    apply Option.ext
    intro v
    rw [← mem_entries_iff (m := ⟨_, hsorted⟩), List.mem_filterMap]
    constructor
    · intro hv
      exact ⟨k, hmem k, by rw [hv, Option.map_some]⟩
    · rintro ⟨k', -, he⟩
      obtain ⟨v', hv', he⟩ := Option.map_eq_some_iff.1 he
      obtain ⟨rfl, rfl⟩ := Prod.mk.inj he
      exact hv'
  exact congrArg entries hsame

/-! ### How many there are -/

omit [TransOrd κ] [LawfulEqOrd κ] in
theorem length_insertEntry {k : κ} (v : ν) {l : List (κ × ν)} (h : lookupEntry k l = none) :
    (insertEntry k v l).length = l.length + 1 := by
  induction l with
  | nil => rfl
  | cons e rest ih =>
    rw [lookupEntry] at h
    by_cases hk : compare k e.1 = .eq
    · rw [if_pos hk] at h
      cases h
    · rw [if_neg hk] at h
      rw [insertEntry]
      split
      · rfl
      · rename_i heq
        exact absurd heq hk
      · exact congrArg (· + 1) (ih h)

theorem size_insert {m : OrderedMap κ ν} {k : κ} (v : ν) (h : m.get? k = none) :
    (m.insert k v).size = m.size + 1 :=
  length_insertEntry v h

/-- An entry that is dropped can be put back. -/
theorem insert_erase {m : OrderedMap κ ν} {k : κ} {v : ν} (h : m.get? k = some v) :
    (m.erase k).insert k v = m := by
  classical
  apply ext_get?
  intro k'
  rw [get?_insert, get?_erase]
  by_cases hk : k' = k
  · rw [if_pos hk, hk, h]
  · rw [if_neg hk, if_neg hk]

theorem size_erase {m : OrderedMap κ ν} {k : κ} {v : ν} (h : m.get? k = some v) :
    (m.erase k).size + 1 = m.size := by
  classical
  have hnone : (m.erase k).get? k = none := by rw [get?_erase, if_pos rfl]
  rw [← size_insert v hnone, insert_erase h]

theorem erase_insert (m : OrderedMap κ ν) (k : κ) (v : ν) : (m.insert k v).erase k = m.erase k := by
  classical
  apply ext_get?
  intro k'
  rw [get?_erase, get?_erase]
  by_cases hk : k' = k
  · rw [if_pos hk, if_pos hk]
  · rw [if_neg hk, if_neg hk, get?_insert_of_ne m v hk]

/-- Putting in a value adds an entry, unless the key has one already. -/
theorem size_insert_add (m : OrderedMap κ ν) (k : κ) (v : ν) :
    (m.insert k v).size + (m.get? k).isSome.toNat = m.size + 1 := by
  cases h : m.get? k with
  | none => exact size_insert v h
  | some w =>
    have hafter := size_erase (get?_insert_self m k v)
    rw [erase_insert, size_erase h] at hafter
    exact congrArg (· + 1) hafter.symm

/-! ### The map of a list -/

theorem mem_of_get?_foldl_insert {l : List (κ × ν)} {m : OrderedMap κ ν} {k : κ} {v : ν}
    (h : (l.foldl (fun m e => m.insert e.1 e.2) m).get? k = some v) :
    (k, v) ∈ l ∨ m.get? k = some v := by
  classical
  induction l generalizing m with
  | nil => exact Or.inr h
  | cons e rest ih =>
    rcases ih h with hmem | hget
    · exact Or.inl (List.mem_cons_of_mem _ hmem)
    · rw [get?_insert] at hget
      by_cases hk : k = e.1
      · rw [if_pos hk] at hget
        have he : e = (k, v) := Prod.ext hk.symm (Option.some.inj hget)
        exact Or.inl (he ▸ List.mem_cons_self)
      · rw [if_neg hk] at hget
        exact Or.inr hget

theorem mem_of_get?_ofList {l : List (κ × ν)} {k : κ} {v : ν}
    (h : (ofList l).get? k = some v) : (k, v) ∈ l := by
  rcases mem_of_get?_foldl_insert h with hmem | hnone
  · exact hmem
  · cases hnone

theorem get?_foldl_insert_of_not_mem {l : List (κ × ν)} (m : OrderedMap κ ν) {k : κ}
    (hk : k ∉ l.map (·.1)) : (l.foldl (fun m e => m.insert e.1 e.2) m).get? k = m.get? k := by
  induction l generalizing m with
  | nil => rfl
  | cons e rest ih =>
    rw [List.map_cons, List.mem_cons, not_or] at hk
    rw [List.foldl_cons, ih _ hk.2, get?_insert_of_ne m e.2 hk.1]

/-- The map of a list without repeated keys has every entry of the list. -/
theorem get?_ofList_of_mem {l : List (κ × ν)} {k : κ} {v : ν} (hl : (l.map (·.1)).Nodup)
    (h : (k, v) ∈ l) : (ofList l).get? k = some v := by
  have hall : ∀ m : OrderedMap κ ν,
      (l.foldl (fun m e => m.insert e.1 e.2) m).get? k = some v := by
    induction l with
    | nil => cases h
    | cons e rest ih =>
      intro m
      obtain ⟨hfirst, hrest⟩ := List.nodup_cons.1 hl
      rw [List.foldl_cons]
      rcases List.mem_cons.1 h with rfl | h
      · rw [get?_foldl_insert_of_not_mem _ hfirst, get?_insert_self]
      · exact ih hrest h _
  exact hall empty

/-- Of several entries with one key the last one counts. -/
theorem get?_ofList [DecidableEq κ] (l : List (κ × ν)) (k : κ) :
    (ofList l).get? k = (l.filter fun e => e.1 = k).getLast?.map (·.2) := by
  have hall : ∀ m : OrderedMap κ ν, (l.foldl (fun m e => m.insert e.1 e.2) m).get? k =
      ((l.filter fun e => e.1 = k).getLast?.map (·.2)).or (m.get? k) := by
    induction l with
    | nil =>
      intro m
      rfl
    | cons e rest ih =>
      intro m
      rw [List.foldl_cons, ih, get?_insert]
      by_cases hk : e.1 = k
      · rw [List.filter_cons_of_pos (by simpa using hk), List.getLast?_cons, if_pos hk.symm]
        cases (rest.filter fun e => e.1 = k).getLast? <;> rfl
      · rw [List.filter_cons_of_neg (by simpa using hk), if_neg (Ne.symm hk)]
  rw [ofList, hall, get?_empty, Option.or_none]

theorem get?_foldl_insert {l : List (κ × ν)} (m : OrderedMap κ ν) (k : κ)
    (hl : l.Pairwise fun a b => compare a.1 b.1 = .lt) :
    (l.foldl (fun m e => m.insert e.1 e.2) m).get? k = (lookupEntry k l).or (m.get? k) := by
  classical
  induction l generalizing m with
  | nil => rfl
  | cons e rest ih =>
    obtain ⟨hhd, htl⟩ := List.pairwise_cons.1 hl
    rw [List.foldl_cons, ih _ htl, get?_insert, lookupEntry]
    by_cases hk : k = e.1
    · have hnone : lookupEntry k rest = none := by
        rw [Option.eq_none_iff_forall_ne_some]
        intro v hv
        exact ne_of_compare_eq_lt (hhd _ (mem_of_lookupEntry_eq_some hv)) hk.symm
      rw [hnone, if_pos hk, if_pos (by rw [hk, compare_self])]
      rfl
    · rw [if_neg hk, if_neg (fun hc => hk (Std.compare_eq_iff_eq.1 hc))]

/-- **A map is the map of its own entries.** -/
theorem ofList_entries (m : OrderedMap κ ν) : ofList m.entries = m := by
  apply ext_get?
  intro k
  rw [ofList, get?_foldl_insert _ _ m.increasing, get?_empty, Option.or_none]
  rfl

/-- Values that tell their own key say all of a map. -/
theorem ofList_values {m : OrderedMap κ ν} {key : ν → κ}
    (hkey : ∀ k v, m.get? k = some v → key v = k) :
    ofList (m.values.map fun v => (key v, v)) = m := by
  have hentries : (m.values.map fun v => (key v, v)) = m.entries := by
    rw [values, List.map_map]
    refine (List.map_congr_left ?_).trans (List.map_id _)
    intro e he
    exact Prod.ext (hkey e.1 e.2 (mem_entries_iff.1 he)) rfl
  rw [hentries, ofList_entries]

end Lawful

end Hotspot.OrderedMap
