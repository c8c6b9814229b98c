/-
  Hotspot/Proofs/CacheHistory.lean
  ================================
  **What the cache tells of its history.**

  Nothing but the sweeps looks at the age of a snapshot, each at its own time, and what a sweep
  evicts does not come back by itself.  So a look-up finds the latest snapshot stored under the
  key, with the time it was stored, just if each sweep since then found it fresh
  (`get?_applyAll_iff`).  The clock may go back in between: to a sweep that comes before the
  snapshot, the snapshot has no age at all.
-/
import Hotspot.MetadataCache
import Hotspot.Proofs.Counting

namespace Hotspot

inductive CacheOperation where
  | store (now : Millis) (key : IdentityKey) (es : Anqp.Elements)
  | sweep (now : Millis)
deriving DecidableEq

theorem Snapshot.isStale_eq_false_iff {s : Snapshot} {now staleness : Millis} :
    s.isStale now staleness = false ↔
      now.toNat - s.capturedAt.toNat < staleness.toNat := by
  rw [isStale, decide_eq_false_iff_not, UInt64.le_iff_toNat_le, Millis.toNat_elapsed,
    Nat.not_le]

namespace MetadataCache

def apply (c : MetadataCache) (staleness : Millis) : CacheOperation → MetadataCache
  | .store now key es => c.store now key es
  | .sweep now => (c.sweep now staleness).2

def applyAll (c : MetadataCache) (staleness : Millis) (ops : List CacheOperation) :
    MetadataCache :=
  ops.foldl (·.apply staleness) c

variable {c : MetadataCache} {staleness now : Millis} {key : IdentityKey} {s : Snapshot}
  {es : Anqp.Elements} {ops : List CacheOperation}

theorem get?_store : (c.store now key es).get? key = some { capturedAt := now, elements := es } :=
  OrderedMap.get?_insert_self ..

theorem get?_sweep : (c.sweep now staleness).2.get? key = some s ↔
    c.get? key = some s ∧ now.toNat - s.capturedAt.toNat < staleness.toNat := by
  rw [sweep, fresh, OrderedMap.get?_filter, Option.filter_eq_some_iff, Bool.not_eq_true',
    Snapshot.isStale_eq_false_iff]

/-- What is fresh now is so at a second look. -/
theorem sweep_sweep (c : MetadataCache) (now staleness : Millis) :
    (c.sweep now staleness).2.sweep now staleness = (0, (c.sweep now staleness).2) := by
  have hkept : (c.fresh now staleness).fresh now staleness = c.fresh now staleness := by
    apply OrderedMap.ext_get?
    intro key
    rw [fresh, fresh, OrderedMap.get?_filter, OrderedMap.get?_filter, Option.filter_filter]
    simp only [Bool.and_self]
  rw [sweep, sweep, hkept, Nat.sub_self]

/-! ### Runs -/

/-- As long as nothing is stored under its key, a snapshot is there just if each sweep finds it
    fresh. -/
theorem get?_applyAll_of_not_stored (h : ∀ now es, .store now key es ∉ ops) :
    (c.applyAll staleness ops).get? key = some s ↔ c.get? key = some s ∧
      ∀ now, .sweep now ∈ ops → now.toNat - s.capturedAt.toNat < staleness.toNat := by
  induction ops generalizing c with
  | nil => simp [applyAll]
  | cons op rest ih =>
    have hrest : ∀ now es, .store now key es ∉ rest :=
      fun now es hmem => h now es (List.mem_cons_of_mem _ hmem)
    have hrun : (c.applyAll staleness (op :: rest)).get? key = some s ↔
        (c.apply staleness op).get? key = some s ∧
          ∀ now, .sweep now ∈ rest → now.toNat - s.capturedAt.toNat < staleness.toNat := ih hrest
    rw [hrun]
    cases op with
    | store now key' es =>
      -- it is another key's snapshot that is stored
      have hkey : key ≠ key' := by
        rintro rfl
        exact h now es List.mem_cons_self
      have hget : (c.store now key' es).get? key = c.get? key :=
        OrderedMap.get?_insert_of_ne _ _ hkey
      simp [apply, hget]
    | sweep now => simp [apply, get?_sweep, and_assoc]

/-- If anything was stored under a key, something was stored there last. -/
theorem exists_last_store (h : ∃ now es, .store now key es ∈ ops) :
    ∃ before now es after, ops = before ++ .store now key es :: after ∧
      ∀ now' es', .store now' key es' ∉ after := by
  induction ops with
  | nil => simp at h
  | cons op rest ih =>
    by_cases hlater : ∃ now es, .store now key es ∈ rest
    · obtain ⟨before, now, es, after, hsplit, hlast⟩ := ih hlater
      exact ⟨op :: before, now, es, after, congrArg (op :: ·) hsplit, hlast⟩
    · obtain ⟨now, es, hmem⟩ := h
      rcases List.mem_cons.1 hmem with rfl | hmem
      · exact ⟨[], now, es, rest, rfl, fun now' es' hmem => hlater ⟨now', es', hmem⟩⟩
      · exact absurd ⟨now, es, hmem⟩ hlater

/-- **What a look-up finds.** -/
theorem get?_applyAll_iff : (applyAll .empty staleness ops).get? key = some s ↔
    ∃ before after, ops = before ++ .store s.capturedAt key s.elements :: after ∧
      (∀ now es, .store now key es ∉ after) ∧
      ∀ now, .sweep now ∈ after → now.toNat - s.capturedAt.toNat < staleness.toNat := by
  -- the run from the last operation that stored something under the key
  have hlast {before after : List CacheOperation} {now : Millis} {es : Anqp.Elements}
      (hafter : ∀ now es, .store now key es ∉ after) :
      (applyAll .empty staleness (before ++ .store now key es :: after)).get? key = some s ↔
        { capturedAt := now, elements := es } = s ∧
          ∀ now, .sweep now ∈ after → now.toNat - s.capturedAt.toNat < staleness.toNat := by
    rw [applyAll, List.foldl_append, List.foldl_cons]
    apply (get?_applyAll_of_not_stored hafter).trans
    rw [apply, get?_store, Option.some_inj]
  constructor
  · intro hget
    by_cases hstored : ∃ now es, .store now key es ∈ ops
    · obtain ⟨before, now, es, after, rfl, hafter⟩ := exists_last_store hstored
      obtain ⟨rfl, hsweeps⟩ := (hlast hafter).1 hget
      exact ⟨before, after, rfl, hafter, hsweeps⟩
    · have hnever : ∀ now es, .store now key es ∉ ops :=
        fun now es hmem => hstored ⟨now, es, hmem⟩
      rw [get?_applyAll_of_not_stored hnever, OrderedMap.get?_empty] at hget
      cases hget.1
  · rintro ⟨before, after, rfl, hafter, hsweeps⟩
    exact (hlast hafter).2 ⟨rfl, hsweeps⟩

/-- **The cache tells its history.**  After every run of the cache, whatever the clock did, a
    look-up finds the latest snapshot stored under the key, just if each sweep since then came
    when its age, in numbers, was below the staleness.  Each sweep returns the number of keys that
    are gone by it, a second one at the same time finds nothing to evict, and the size of the
    cache is the number of keys that are there. -/
theorem cache_tells_its_history :
    (∀ (staleness : Millis) (ops : List CacheOperation) (key : IdentityKey) (s : Snapshot),
      (applyAll .empty staleness ops).get? key = some s ↔
        ∃ before after, ops = before ++ .store s.capturedAt key s.elements :: after ∧
          (∀ now es, .store now key es ∉ after) ∧
          ∀ now, .sweep now ∈ after →
            now.toNat - s.capturedAt.toNat < staleness.toNat) ∧
    ∀ (c : MetadataCache) (now staleness : Millis),
      let (count, after) := c.sweep now staleness
      count = {key | (c.get? key).isSome = true ∧ after.get? key = none}.ncard ∧
      after.sweep now staleness = (0, after) ∧
      c.size = {key | (c.get? key).isSome = true}.ncard := by
  refine ⟨fun staleness ops key s => get?_applyAll_iff, fun c now staleness => ⟨?_, ?_, ?_⟩⟩
  · refine (OrderedMap.size_sub_size_filter _ c).trans ?_
    simp only [OrderedMap.contains, Option.isSome_eq_false_iff, Option.isNone_iff_eq_none]
    rfl
  · exact sweep_sweep c now staleness
  · exact c.size_eq_ncard

/-- A clock that is set back makes nothing look old; the staleness itself is too old. -/
example :
    let key : IdentityKey := ⟨none, 1, 0, 0⟩
    let ops : List CacheOperation :=
      [.store 5 key .empty, .store 100 key .empty, .sweep 20, .sweep 109]
    (applyAll .empty 10 ops).get? key = some ⟨100, .empty⟩ ∧
      (applyAll .empty 10 (ops ++ [.sweep 110])).get? key = none := by
  decide

end MetadataCache

end Hotspot
