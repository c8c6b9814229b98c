/-
  Hotspot/OrderedMap.lean
  =======================
  **Finite maps kept in the order of their keys.**

  Everything the manager remembers by name — profiles by home domain, watched
  applications by package, snapshots by identity key, requests by radio address — is
  printed or visited in key order somewhere, so the order belongs to the type.  A map
  is its list of entries together with the proof that the keys increase strictly; two
  maps with the same look-ups are therefore *equal* (`ext_get?`), not only equivalent.

  `get?` is the view: each operation below has one equation through it, and nothing
  outside this file looks at how the list is built.
-/

namespace Hotspot

open Std

/-- A finite map from `κ` to `ν`, as the list of its entries by increasing key. -/
structure OrderedMap (κ ν : Type) [Ord κ] where
  entries : List (κ × ν)
  increasing : entries.Pairwise fun a b => compare a.1 b.1 = .lt
deriving DecidableEq

namespace OrderedMap

variable {κ ν μ : Type} [Ord κ]

/-! ### Entry lists -/

def insertEntry (k : κ) (v : ν) : List (κ × ν) → List (κ × ν)
  | [] => [(k, v)]
  | e :: rest =>
    match compare k e.1 with
    | .lt => (k, v) :: e :: rest
    | .eq => (k, v) :: rest
    | .gt => e :: insertEntry k v rest

def lookupEntry (k : κ) : List (κ × ν) → Option ν
  | [] => none
  | e :: rest => if compare k e.1 = .eq then some e.2 else lookupEntry k rest

theorem mem_insertEntry {k : κ} {v : ν} {e : κ × ν} {l : List (κ × ν)}
    (h : e ∈ insertEntry k v l) : e = (k, v) ∨ e ∈ l := by
  induction l with
  | nil => simpa [insertEntry] using h
  | cons hd tl ih =>
    rw [insertEntry] at h
    split at h
    · simpa using h
    · rcases List.mem_cons.1 h with h | h
      · exact Or.inl h
      · exact Or.inr (List.mem_cons_of_mem _ h)
    · rcases List.mem_cons.1 h with h | h
      · exact Or.inr (h ▸ List.mem_cons_self)
      · exact (ih h).imp id (List.mem_cons_of_mem _)

theorem pairwise_insertEntry [TransOrd κ] [LawfulEqOrd κ] (k : κ) (v : ν) {l : List (κ × ν)}
    (h : l.Pairwise fun a b => compare a.1 b.1 = .lt) :
    (insertEntry k v l).Pairwise fun a b => compare a.1 b.1 = .lt := by
  induction l with
  | nil => simp [insertEntry]
  | cons hd tl ih =>
    have hhd : ∀ e ∈ tl, compare hd.1 e.1 = .lt := (List.pairwise_cons.1 h).1
    have htl := (List.pairwise_cons.1 h).2
    rw [insertEntry]
    split
    · rename_i hk
      refine List.pairwise_cons.2 ⟨fun e he => ?_, h⟩
      rcases List.mem_cons.1 he with rfl | he
      · exact hk
      · exact TransCmp.lt_trans hk (hhd e he)
    · rename_i hk
      have hk' : k = hd.1 := Std.compare_eq_iff_eq.1 hk
      exact List.pairwise_cons.2 ⟨fun e he => hk' ▸ hhd e he, htl⟩
    · rename_i hk
      refine List.pairwise_cons.2 ⟨fun e he => ?_, ih htl⟩
      rcases mem_insertEntry he with rfl | he
      · exact OrientedCmp.gt_iff_lt.1 hk
      · exact hhd e he

theorem lookupEntry_eq_some_of_mem [TransOrd κ] [LawfulEqOrd κ] {k : κ} {v : ν}
    {l : List (κ × ν)} (h : l.Pairwise fun a b => compare a.1 b.1 = .lt) (he : (k, v) ∈ l) :
    lookupEntry k l = some v := by
  induction l with
  | nil => simp at he
  | cons hd tl ih =>
    have hhd : ∀ e ∈ tl, compare hd.1 e.1 = .lt := (List.pairwise_cons.1 h).1
    rw [lookupEntry]
    rcases List.mem_cons.1 he with rfl | he
    · simp
    · have hlt := hhd _ he
      have hne : compare k hd.1 ≠ .eq := by
        intro hc
        have hkk : k = hd.1 := Std.compare_eq_iff_eq.1 hc
        simp only [hkk, compare_self] at hlt
        cases hlt
      rw [if_neg hne]
      exact ih (List.pairwise_cons.1 h).2 he

theorem mem_of_lookupEntry_eq_some [LawfulEqOrd κ] {k : κ} {v : ν} {l : List (κ × ν)}
    (h : lookupEntry k l = some v) : (k, v) ∈ l := by
  induction l with
  | nil => simp [lookupEntry] at h
  | cons hd tl ih =>
    rw [lookupEntry] at h
    split at h
    · rename_i hk
      have hk' : k = hd.1 := Std.compare_eq_iff_eq.1 hk
      have hv : hd.2 = v := by simpa using h
      have : hd = (k, v) := by rw [hk', ← hv]
      exact this ▸ List.mem_cons_self
    · exact List.mem_cons_of_mem _ (ih h)

theorem lookupEntry_insertEntry [TransOrd κ] [LawfulEqOrd κ] [DecidableEq κ] (k k' : κ) (v : ν)
    (l : List (κ × ν)) :
    lookupEntry k' (insertEntry k v l) = if k' = k then some v else lookupEntry k' l := by
  induction l with
  | nil => simp [insertEntry, lookupEntry]
  | cons hd tl ih =>
    rw [insertEntry]
    split
    · simp [lookupEntry]
    · rename_i hk
      have hk' : k = hd.1 := Std.compare_eq_iff_eq.1 hk
      simp only [lookupEntry, Std.compare_eq_iff_eq, ← hk']
      split <;> rfl
    · rename_i hk
      have hne : k ≠ hd.1 := by
        intro hc
        rw [hc, compare_self] at hk
        cases hk
      simp only [lookupEntry, Std.compare_eq_iff_eq, ih]
      by_cases h : k' = hd.1
      · simp [h, Ne.symm hne]
      · simp [h]

/-! ### The operations -/

def empty : OrderedMap κ ν := ⟨[], List.Pairwise.nil⟩

instance : EmptyCollection (OrderedMap κ ν) := ⟨empty⟩
instance : Inhabited (OrderedMap κ ν) := ⟨empty⟩

def get? (m : OrderedMap κ ν) (k : κ) : Option ν := lookupEntry k m.entries

def contains (m : OrderedMap κ ν) (k : κ) : Bool := (m.get? k).isSome

def insert [TransOrd κ] [LawfulEqOrd κ] (m : OrderedMap κ ν) (k : κ) (v : ν) : OrderedMap κ ν :=
  ⟨insertEntry k v m.entries, pairwise_insertEntry k v m.increasing⟩

def filter (p : κ → ν → Bool) (m : OrderedMap κ ν) : OrderedMap κ ν :=
  ⟨m.entries.filter fun e => p e.1 e.2, m.increasing.filter _⟩

def erase (m : OrderedMap κ ν) (k : κ) : OrderedMap κ ν :=
  m.filter fun k' _ => compare k k' != .eq

def mapValues (f : κ → ν → μ) (m : OrderedMap κ ν) : OrderedMap κ μ :=
  ⟨m.entries.map fun e => (e.1, f e.1 e.2), by
    rw [List.pairwise_map]
    exact m.increasing⟩

def modify (m : OrderedMap κ ν) (k : κ) (f : ν → ν) : OrderedMap κ ν :=
  m.mapValues fun k' v => if compare k k' = .eq then f v else v

/-- The map of a list of entries; of two with one key the later stays. -/
def ofList [TransOrd κ] [LawfulEqOrd κ] (l : List (κ × ν)) : OrderedMap κ ν :=
  l.foldl (fun m e => m.insert e.1 e.2) empty

def keys (m : OrderedMap κ ν) : List κ := m.entries.map (·.1)

def values (m : OrderedMap κ ν) : List ν := m.entries.map (·.2)

def size (m : OrderedMap κ ν) : Nat := m.entries.length

def isEmpty (m : OrderedMap κ ν) : Bool := m.entries.isEmpty

/-! ### One equation each through `get?` -/

@[simp] theorem get?_empty (k : κ) : (empty : OrderedMap κ ν).get? k = none := rfl

section Lawful

variable [TransOrd κ] [LawfulEqOrd κ]

theorem mem_entries_iff {m : OrderedMap κ ν} {k : κ} {v : ν} :
    (k, v) ∈ m.entries ↔ m.get? k = some v :=
  ⟨lookupEntry_eq_some_of_mem m.increasing, mem_of_lookupEntry_eq_some⟩

theorem get?_insert [DecidableEq κ] (m : OrderedMap κ ν) (k k' : κ) (v : ν) :
    (m.insert k v).get? k' = if k' = k then some v else m.get? k' :=
  lookupEntry_insertEntry k k' v m.entries

@[simp] theorem get?_insert_self (m : OrderedMap κ ν) (k : κ) (v : ν) :
    (m.insert k v).get? k = some v := by
  classical
  rw [get?_insert, if_pos rfl]

theorem get?_insert_of_ne (m : OrderedMap κ ν) {k k' : κ} (v : ν) (h : k' ≠ k) :
    (m.insert k v).get? k' = m.get? k' := by
  classical
  rw [get?_insert, if_neg h]

theorem get?_filter (p : κ → ν → Bool) (m : OrderedMap κ ν) (k : κ) :
    (m.filter p).get? k = (m.get? k).filter (p k) := by
  apply Option.ext
  intro v
  rw [← mem_entries_iff, Option.filter_eq_some_iff, ← mem_entries_iff]
  exact List.mem_filter

theorem get?_mapValues (f : κ → ν → μ) (m : OrderedMap κ ν) (k : κ) :
    (m.mapValues f).get? k = (m.get? k).map (f k) := by
  apply Option.ext
  intro v
  rw [← mem_entries_iff, Option.map_eq_some_iff]
  constructor
  · intro h
    obtain ⟨e, he, heq⟩ := List.mem_map.1 h
    obtain ⟨k', w⟩ := e
    simp only [Prod.mk.injEq] at heq
    obtain ⟨rfl, rfl⟩ := heq
    exact ⟨w, mem_entries_iff.1 he, rfl⟩
  · rintro ⟨w, hw, rfl⟩
    exact List.mem_map.2 ⟨(k, w), mem_entries_iff.2 hw, rfl⟩

theorem get?_erase [DecidableEq κ] (m : OrderedMap κ ν) (k k' : κ) :
    (m.erase k).get? k' = if k' = k then none else m.get? k' := by
  rw [erase, get?_filter]
  by_cases h : k' = k
  · subst h
    cases m.get? k' <;> simp [compare_self]
  · have hne : compare k k' ≠ .eq := fun hc => h (Std.compare_eq_iff_eq.1 hc).symm
    cases m.get? k' <;> simp [h, hne]

theorem get?_modify [DecidableEq κ] (m : OrderedMap κ ν) (k k' : κ) (f : ν → ν) :
    (m.modify k f).get? k' = if k' = k then (m.get? k').map f else m.get? k' := by
  rw [modify, get?_mapValues]
  by_cases h : k' = k
  · subst h
    simp [compare_self]
  · have hne : compare k k' ≠ .eq := fun hc => h (Std.compare_eq_iff_eq.1 hc).symm
    simp [h, hne]

/-- Maps with the same look-ups are one map. -/
theorem ext_get? {m n : OrderedMap κ ν} (h : ∀ k, m.get? k = n.get? k) : m = n := by
  have hmem : ∀ e, e ∈ m.entries ↔ e ∈ n.entries := by
    rintro ⟨k, v⟩
    rw [mem_entries_iff, mem_entries_iff, h k]
  obtain ⟨l, hl⟩ := m
  obtain ⟨l', hl'⟩ := n
  suffices l = l' by subst this; rfl
  simp only at hmem
  clear h
  induction l generalizing l' with
  | nil =>
    cases l' with
    | nil => rfl
    | cons e t => exact absurd ((hmem e).2 List.mem_cons_self) (by simp)
  | cons e t ih =>
    cases l' with
    | nil => exact absurd ((hmem e).1 List.mem_cons_self) (by simp)
    | cons e' t' =>
      have hlt : ∀ x ∈ t, compare e.1 x.1 = .lt := (List.pairwise_cons.1 hl).1
      have hlt' : ∀ x ∈ t', compare e'.1 x.1 = .lt := (List.pairwise_cons.1 hl').1
      have irr : ∀ x : κ × ν, compare x.1 x.1 ≠ .lt := fun x => by
        rw [compare_self]; intro hc; cases hc
      have hee : e = e' := by
        rcases List.mem_cons.1 ((hmem e).1 List.mem_cons_self) with h | h
        · exact h
        · rcases List.mem_cons.1 ((hmem e').2 List.mem_cons_self) with h' | h'
          · exact h'.symm
          · exact absurd (TransCmp.lt_trans (hlt' e h) (hlt e' h')) (irr e')
      subst hee
      have ht : t = t' := by
        refine ih (List.pairwise_cons.1 hl).2 t' (List.pairwise_cons.1 hl').2 fun x => ?_
        constructor
        · intro hx
          rcases List.mem_cons.1 ((hmem x).1 (List.mem_cons_of_mem _ hx)) with h | h
          · exact absurd (h ▸ hlt x hx) (irr e)
          · exact h
        · intro hx
          rcases List.mem_cons.1 ((hmem x).2 (List.mem_cons_of_mem _ hx)) with h | h
          · exact absurd (h ▸ hlt' x hx) (irr e)
          · exact h
      rw [ht]

end Lawful

end OrderedMap

end Hotspot
