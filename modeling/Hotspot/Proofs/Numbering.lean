/-
  Hotspot/Proofs/Numbering.lean
  =============================
  **Where the profiles and their numbers come from.**

  An operation other than restoring makes a registry out of the one before in one of three
  ways: without giving a number, with a number that was given in vain, or with one new profile
  under the next number (`Succession`).  That a profile is entered under its own home domain
  follows for every reachable state.

  Numbers are words of 64 bits.  As long as the largest word is never given to a profile the
  next number never wraps around (`NumbersLast`), and every profile of a run has a number below
  the next one.  A registry with both properties comes back from its stored form as it was
  (`restore_toState`).
-/
import Hotspot.Proofs.Deeds

namespace Hotspot

namespace Registry

/-! ### Successions -/

/-- What an operation other than restoring makes of a registry. -/
inductive Succession (r r' : Registry) : Prop where
  | upkeep (h : r.Upkeep r')
  | refused (h : r.takeIndex.Upkeep r')
  | entered (q : Profile) (index : q.index = r.nextIndex) (h : (r.takeIndex.insert q).Upkeep r')

variable {r r' : Registry}

theorem Turn.succession {op : Operation} {entered : Option Profile} {tried : List Deed}
    {gone : List Profile} {stored : List PersistedState}
    (t : r.Turn op entered tried gone stored r') : r.Succession r' := by
  obtain ⟨r₁, move, stays⟩ := t.move
  cases move with
  | nothing => exact .upkeep stays.toUpkeep
  | refused q => exact .refused stays.toUpkeep
  | installed q index => exact .entered q index stays.toUpkeep
  | imported q index => exact .entered q index stays.toUpkeep
  | removed get => exact .upkeep ((Upkeep.erase _ _).trans stays.toUpkeep)
  | revoked package => exact .upkeep ((Upkeep.eraseSavedBy _ package).trans stays.toUpkeep)

theorem Keyed.succession (hr : r.Keyed) (h : r.Succession r') : r'.Keyed := by
  cases h with
  | upkeep h => exact hr.upkeep h
  | refused h => exact Keyed.upkeep (r := r.takeIndex) hr h
  | entered q index h => exact (Keyed.insert (r := r.takeIndex) hr q).upkeep h

/-! ### Words -/

def lastIndex : UInt64 := 18446744073709551615

theorem lt_add_one {n : UInt64} (h : n ≠ lastIndex) : n < n + 1 := by
  have hlast : lastIndex.toNat = 2 ^ 64 - 1 := by decide
  have hne : n.toNat ≠ lastIndex.toNat := fun hc => h (UInt64.toNat_inj.1 hc)
  have hbound : n.toNat < 2 ^ 64 := n.toNat_lt
  rw [UInt64.lt_iff_toNat_lt, UInt64.toNat_add]
  have hone : (1 : UInt64).toNat = 1 := rfl
  omega

/-- A count that does not wrap around did not stand at the largest number. -/
theorem ne_lastIndex_of_add_one {n n' : UInt64} (hlast : n = lastIndex → n' = lastIndex)
    (h : n' = n + 1) : n ≠ lastIndex := by
  intro hc
  rw [hlast hc, hc] at h
  exact absurd h (by decide)

theorem le_larger_left (a b : UInt64) : a ≤ larger a b := by
  unfold larger
  rw [UInt64.le_iff_toNat_le]
  split
  · rename_i h
    rw [UInt64.lt_iff_toNat_lt] at h
    omega
  · omega

theorem le_larger_right (a b : UInt64) : b ≤ larger a b := by
  unfold larger
  rw [UInt64.le_iff_toNat_le]
  split
  · omega
  · rename_i h
    rw [UInt64.lt_iff_toNat_lt] at h
    omega

theorem larger_eq_left {a b : UInt64} (h : b ≤ a) : larger a b = a := by
  unfold larger
  rw [if_neg]
  rw [UInt64.le_iff_toNat_le] at h
  rw [UInt64.lt_iff_toNat_lt]
  omega

theorem larger_zero_left (n : UInt64) : larger 0 n = n := by
  apply UInt64.toNat_inj.1
  unfold larger
  split
  · rfl
  · rename_i h
    rw [UInt64.lt_iff_toNat_lt] at h
    have hzero : (0 : UInt64).toNat = 0 := rfl
    omega

theorem le_foldl_larger (qs : List Profile) (n : UInt64) :
    n ≤ qs.foldl (fun n q => larger n (q.index + 1)) n := by
  induction qs generalizing n with
  | nil => exact UInt64.le_refl n
  | cons q rest ih => exact UInt64.le_trans (le_larger_left n _) (ih _)

theorem index_le_foldl_larger {qs : List Profile} {q : Profile} (hq : q ∈ qs) (n : UInt64) :
    q.index + 1 ≤ qs.foldl (fun n q => larger n (q.index + 1)) n := by
  induction qs generalizing n with
  | nil => cases hq
  | cons first rest ih =>
    rcases List.mem_cons.1 hq with rfl | hq
    · exact UInt64.le_trans (le_larger_right n _) (le_foldl_larger rest _)
    · exact ih hq _

theorem foldl_larger_eq_self {qs : List Profile} {n : UInt64} (h : ∀ q ∈ qs, q.index + 1 ≤ n) :
    qs.foldl (fun n q => larger n (q.index + 1)) n = n := by
  induction qs with
  | nil => rfl
  | cons q rest ih =>
    rw [List.foldl_cons, larger_eq_left (h q List.mem_cons_self)]
    exact ih fun q' hq' => h q' (List.mem_cons_of_mem q hq')

/-! ### Numbers below the next one -/

theorem Numbered.takeIndex (hr : r.Numbered) (hlast : r.nextIndex ≠ lastIndex) :
    r.takeIndex.Numbered := by
  intro fqdn q hget
  exact UInt64.lt_trans (hr fqdn q hget) (lt_add_one hlast)

/-- A succession that does not wrap around keeps the numbers below the next one. -/
theorem Numbered.succession (hr : r.Numbered) (h : r.Succession r')
    (hlast : r.nextIndex = lastIndex → r'.nextIndex = lastIndex) : r'.Numbered := by
  cases h with
  | upkeep h => exact hr.upkeep h
  | refused h => exact (hr.takeIndex (ne_lastIndex_of_add_one hlast h.nextIndex)).upkeep h
  | entered q index h =>
    have hne : r.nextIndex ≠ lastIndex := ne_lastIndex_of_add_one hlast h.nextIndex
    refine Numbered.upkeep ?_ h
    intro fqdn q' hget
    rw [get?_insert] at hget
    by_cases hk : fqdn = q.fqdn
    · rw [if_pos hk, Option.some.injEq] at hget
      rw [← hget, index]
      exact lt_add_one hne
    · rw [if_neg hk] at hget
      exact hr.takeIndex hne fqdn q' hget

/-- Restoring raises the next number above every number in the state. -/
theorem index_lt_restore (r : Registry) {s : PersistedState} {q : Profile} (hq : q ∈ s.profiles)
    (hlast : q.index ≠ lastIndex) : q.index < (r.restore s).nextIndex :=
  UInt64.lt_of_lt_of_le (lt_add_one hlast) (index_le_foldl_larger hq _)

theorem nextIndex_le_restore (r : Registry) (s : PersistedState) :
    r.nextIndex ≤ (r.restore s).nextIndex :=
  UInt64.le_trans (le_larger_left _ _) (le_foldl_larger _ _)

theorem nextIndex_le_restore_of_state (r : Registry) (s : PersistedState) :
    s.nextIndex ≤ (r.restore s).nextIndex :=
  UInt64.le_trans (le_larger_right _ _) (le_foldl_larger _ _)

theorem numbered_restore (r : Registry) {s : PersistedState}
    (hlast : ∀ q ∈ s.profiles, q.index ≠ lastIndex) : (r.restore s).Numbered := by
  intro fqdn q hget
  have hmem : q ∈ s.profiles := (get?_restore hget).1
  exact index_lt_restore r hmem (hlast q hmem)

/-- **A stored registry comes back as it was.** -/
theorem restore_toState (hkeyed : r.Keyed) (hnumbered : r.Numbered) :
    empty.restore r.toState = r := by
  have hprofiles : OrderedMap.ofList (r.profiles.values.map fun q => (q.fqdn, q)) = r.profiles :=
    OrderedMap.ofList_values hkeyed
  have hindex : ∀ q ∈ r.profiles.values, q.index + 1 ≤ r.nextIndex := by
    intro q hq
    obtain ⟨fqdn, hget⟩ := mem_values_iff.1 hq
    have hlt := UInt64.lt_iff_toNat_lt.1 (hnumbered fqdn q hget)
    have hbound : r.nextIndex.toNat < 2 ^ 64 := r.nextIndex.toNat_lt
    rw [UInt64.le_iff_toNat_le, UInt64.toNat_add]
    have hone : (1 : UInt64).toNat = 1 := rfl
    omega
  have hnext : (r.profiles.values.foldl (fun n q => larger n (q.index + 1))
      (larger 0 r.nextIndex)) = r.nextIndex := by
    rw [larger_zero_left]
    exact foldl_larger_eq_self hindex
  unfold restore toState
  dsimp only
  rw [hprofiles]
  exact congrArg (Registry.mk r.profiles) hnext

end Registry

theorem Operation.eq_restore_or (op : Operation) :
    (∃ s, op = .restore s) ∨ ∀ s, op ≠ .restore s := by
  by_cases h : ∃ s, op = .restore s
  · exact Or.inl h
  · exact Or.inr fun s hs => h ⟨s, hs⟩

namespace Manager

variable {m : Manager} {p : Platform}

/-! ### Operations -/

/-- **Every operation but restoring is a succession.** -/
theorem succession_perform {op : Operation} (hop : ∀ s, op ≠ .restore s) :
    m.registry.Succession (m.perform p op).2.registry := by
  obtain ⟨tried, gone, stored, turn, -⟩ := turn_perform (m := m) (p := p) hop
  exact turn.succession

theorem keyed_perform (h : m.registry.Keyed) (op : Operation) :
    (m.perform p op).2.registry.Keyed := by
  rcases op.eq_restore_or with ⟨s, rfl⟩ | hop
  · have hrestored : (m.perform p (.restore s)).2.registry = m.registry.restore s :=
      restore_registry m s
    rw [hrestored]
    exact Registry.keyed_restore m.registry s
  · exact h.succession (succession_perform hop)

theorem keyed_run (steps : List Step) (h : m.registry.Keyed) : (m.run steps).registry.Keyed :=
  run_induction (I := fun m => m.registry.Keyed) (fun _ _ op h => keyed_perform h op) steps h

theorem keyed_of_reachable (hm : m.Reachable) : m.registry.Keyed :=
  hm.induction (I := fun m => m.registry.Keyed) (fun _ _ => Registry.keyed_empty)
    fun _ _ op h => keyed_perform h op

/-- A step in which no profile gets the largest number: a restored state has no such profile,
    and no other operation takes the next number away once it is the largest. -/
def NumbersLast (m : Manager) (s : Step) : Prop :=
  match s.2 with
  | .restore state => ∀ q ∈ state.profiles, q.index ≠ Registry.lastIndex
  | op => m.registry.nextIndex = Registry.lastIndex →
      (m.perform s.1 op).2.registry.nextIndex = Registry.lastIndex

theorem NumbersLast.of_ne_restore {op : Operation} (hlast : NumbersLast m (p, op))
    (hop : ∀ s, op ≠ .restore s) : m.registry.nextIndex = Registry.lastIndex →
      (m.perform p op).2.registry.nextIndex = Registry.lastIndex := by
  cases op with
  | restore s => exact absurd rfl (hop s)
  | _ => exact hlast

theorem numbered_perform (op : Operation) (hlast : NumbersLast m (p, op))
    (h : m.registry.Numbered) : (m.perform p op).2.registry.Numbered := by
  rcases op.eq_restore_or with ⟨s, rfl⟩ | hop
  · have hrestored : (m.perform p (.restore s)).2.registry = m.registry.restore s :=
      restore_registry m s
    rw [hrestored]
    exact Registry.numbered_restore m.registry hlast
  · exact h.succession (succession_perform hop) (hlast.of_ne_restore hop)

/-- **Numbers stay below the next one** in a run in which no profile gets the largest number. -/
theorem numbered_run {steps : List Step} (hlast : Along NumbersLast m steps)
    (h : m.registry.Numbered) : (m.run steps).registry.Numbered :=
  hlast.run_induction (I := fun m => m.registry.Numbered)
    (fun _ _ op hstep h => numbered_perform op hstep h) h

end Manager

end Hotspot
