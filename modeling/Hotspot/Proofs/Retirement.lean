/-
  Hotspot/Proofs/Retirement.lean
  ==============================
  **Which profiles an operation retires.**

  An operation retires the profiles whose domain has none afterwards, and the one in whose place
  it enters another.  Nothing of how it goes about that is in this description (`retired`), and
  what it dismisses on its way agrees with it (`Turn.gone_eq`).  Every other profile stays in its
  place, and a profile that was not there before is the one that was entered.

  From this follows what an operation asks of the secure store and of the network entries, told
  by the registry before and after alone.
-/
import Hotspot.Proofs.Deeds
import Hotspot.Proofs.Questions

namespace Hotspot

/-- What a list without repetitions has in common with a part of it, in its order, is the
    part. -/
theorem filter_mem_of_sublist {α : Type} [DecidableEq α] {part whole : List α}
    (h : part.Sublist whole) (hwhole : whole.Nodup) :
    whole.filter (fun a => decide (a ∈ part)) = part := by
  induction h with
  | slnil => rfl
  | @cons part whole a h ih =>
    obtain ⟨ha, hwhole⟩ := List.nodup_cons.1 hwhole
    have hnot : a ∉ part := fun hmem => ha (h.subset hmem)
    rw [List.filter_cons_of_neg (by simpa using hnot), ih hwhole]
  | @cons_cons part whole a h ih =>
    obtain ⟨ha, hwhole⟩ := List.nodup_cons.1 hwhole
    have hrest : whole.filter (fun b => decide (b ∈ a :: part)) =
        whole.filter (fun b => decide (b ∈ part)) := by
      apply List.filter_congr
      intro b hb
      have hne : b ≠ a := fun he => ha (he ▸ hb)
      simp [hne]
    rw [List.filter_cons_of_pos (by simp), hrest, ih hwhole]

namespace Registry

variable {r r' : Registry} {op : Operation} {entered : Option Profile} {tried : List Deed}
  {gone : List Profile} {stored : List PersistedState} {fqdn : String} {q q' : Profile}

theorem Keyed.get?_of_mem_values (hr : r.Keyed) (hq : q ∈ r.profiles.values) :
    r.get? q.fqdn = some q := by
  obtain ⟨fqdn, hget⟩ := mem_values_iff.1 hq
  rwa [hr fqdn q hget]

theorem Keyed.nodup_values (hr : r.Keyed) : r.profiles.values.Nodup := by
  apply List.Pairwise.imp _ hr.ne_of_ne
  intro q q' hne heq
  exact hne (congrArg Profile.fqdn heq)

theorem get?_toList_sublist (r : Registry) (fqdn : String) :
    (r.get? fqdn).toList.Sublist r.profiles.values := by
  cases hget : r.get? fqdn with
  | none => exact List.nil_sublist _
  | some q => exact List.singleton_sublist.2 (mem_values_iff.2 ⟨fqdn, hget⟩)

/-! ### Moves -/

theorem Move.gone_sublist (h : r.Move op entered tried gone r') :
    gone.Sublist r.profiles.values := by
  cases h with
  | nothing => exact List.nil_sublist _
  | refused => exact List.nil_sublist _
  | installed q => exact get?_toList_sublist r q.fqdn
  | imported q => exact get?_toList_sublist r q.fqdn
  | removed get => exact List.singleton_sublist.2 (mem_values_iff.2 ⟨_, get⟩)
  | revoked package => exact List.filter_sublist

theorem Move.mem_gone_of_replaced (h : r.Move op entered tried gone r') (hq : entered = some q)
    (hget : r.get? q.fqdn = some q') : q' ∈ gone := by
  subst hq
  cases h with
  | installed _ => exact Option.mem_toList.2 hget
  | imported _ => exact Option.mem_toList.2 hget

theorem Keyed.mem_replaced_iff (hr : r.Keyed) (e : Profile) (hget : r.get? fqdn = some q) :
    q ∈ (r.get? e.fqdn).toList ↔ fqdn = e.fqdn := by
  rw [Option.mem_toList]
  constructor
  · intro hget'
    exact (hr _ _ hget).symm.trans (hr _ _ hget')
  · rintro rfl
    exact hget

theorem Keyed.get?_entered (hr : r.Keyed) (e : Profile) :
    (r.takeIndex.insert e).get? fqdn = some q ↔
      (some e = some q ∧ q.fqdn = fqdn) ∨
        (r.get? fqdn = some q ∧ q ∉ (r.get? e.fqdn).toList) := by
  rw [get?_insert]
  by_cases hk : fqdn = e.fqdn
  · rw [if_pos hk]
    constructor
    · intro he
      exact Or.inl ⟨he, (Option.some.inj he ▸ hk).symm⟩
    · rintro (⟨he, -⟩ | ⟨hget, hnot⟩)
      · exact he
      · exact absurd ((hr.mem_replaced_iff e hget).2 hk) hnot
  · rw [if_neg hk]
    constructor
    · intro hget
      exact Or.inr ⟨hget, fun hmem => hk ((hr.mem_replaced_iff e hget).1 hmem)⟩
    · rintro (⟨he, hq⟩ | ⟨hget, -⟩)
      · rw [Option.some.injEq] at he
        exact absurd (he ▸ hq.symm) hk
      · exact hget

/-- **What is under a domain after a move**: the profile that was entered there, or the one that
    was there before if it is not gone. -/
theorem Move.get?_iff (h : r.Move op entered tried gone r') (hr : r.Keyed) :
    r'.get? fqdn = some q ↔
      (entered = some q ∧ q.fqdn = fqdn) ∨ (r.get? fqdn = some q ∧ q ∉ gone) := by
  cases h with
  | nothing => simp
  | refused => simp [takeIndex, get?]
  | installed e => exact hr.get?_entered e
  | imported e => exact hr.get?_entered e
  | @removed _ fqdn' e get =>
    rw [get?_erase, List.mem_singleton]
    by_cases hk : fqdn = fqdn'
    · subst hk
      rw [if_pos rfl, get, Option.some.injEq]
      constructor
      · intro h
        cases h
      · rintro (⟨h, -⟩ | ⟨h, hnot⟩)
        · cases h
        · exact absurd h.symm hnot
    · rw [if_neg hk]
      constructor
      · intro hget
        refine Or.inr ⟨hget, fun hq => hk ?_⟩
        subst hq
        exact (hr _ _ hget).symm.trans (hr _ _ get)
      · rintro (⟨h, -⟩ | ⟨hget, -⟩)
        · cases h
        · exact hget
  | revoked package =>
    rw [get?_eraseSavedBy, Option.filter_eq_some_iff, Bool.not_eq_true']
    constructor
    · rintro ⟨hget, hsaved⟩
      refine Or.inr ⟨hget, fun hgone => ?_⟩
      rw [(mem_savedBy_iff.1 hgone).2] at hsaved
      cases hsaved
    · rintro (⟨h, -⟩ | ⟨hget, hgone⟩)
      · cases h
      · refine ⟨hget, Bool.eq_false_iff.2 fun hsaved => hgone ?_⟩
        exact mem_savedBy_iff.2 ⟨⟨fqdn, hget⟩, hsaved⟩

/-! ### Turns -/

namespace Turn

theorem entered_stays (t : r.Turn op entered tried gone stored r') (hr : r.Keyed)
    (hq : entered = some q) : ∃ q', r'.get? q.fqdn = some q' ∧ q.SameInstallation q' := by
  obtain ⟨r₁, move, stays⟩ := t.move
  exact stays.kept _ _ ((move.get?_iff hr).2 (Or.inl ⟨hq, rfl⟩))

theorem kept (t : r.Turn op entered tried gone stored r') (hr : r.Keyed)
    (hget : r.get? fqdn = some q) (hgone : q ∉ gone) :
    ∃ q', r'.get? fqdn = some q' ∧ q.SameInstallation q' := by
  obtain ⟨r₁, move, stays⟩ := t.move
  exact stays.kept _ _ ((move.get?_iff hr).2 (Or.inr ⟨hget, hgone⟩))

theorem origin (t : r.Turn op entered tried gone stored r') (hr : r.Keyed)
    (hget : r'.get? fqdn = some q') :
    (∃ q, entered = some q ∧ q.fqdn = fqdn ∧ q.SameInstallation q') ∨
      ∃ q, r.get? fqdn = some q ∧ q ∉ gone ∧ q.SameInstallation q' := by
  obtain ⟨r₁, move, stays⟩ := t.move
  obtain ⟨q, hq, hsame⟩ := stays.origin fqdn q' hget
  rcases (move.get?_iff hr).1 hq with ⟨hentered, hk⟩ | ⟨hbefore, hgone⟩
  · exact Or.inl ⟨q, hentered, hk, hsame⟩
  · exact Or.inr ⟨q, hbefore, hgone, hsame⟩

theorem mem_gone_iff (t : r.Turn op entered tried gone stored r') (hr : r.Keyed)
    (hget : r.get? q.fqdn = some q) :
    q ∈ gone ↔ r'.get? q.fqdn = none ∨ entered.map (·.fqdn) = some q.fqdn := by
  constructor
  · intro hgone
    cases hafter : r'.get? q.fqdn with
    | none => exact Or.inl rfl
    | some q' =>
      rcases t.origin hr hafter with ⟨e, rfl, hk, -⟩ | ⟨q₀, hget₀, hnot, -⟩
      · exact Or.inr (congrArg some hk)
      · rw [hget, Option.some.injEq] at hget₀
        exact absurd (hget₀ ▸ hgone) hnot
  · intro h
    apply Decidable.byContradiction
    intro hnot
    rcases h with hafter | hreplaced
    · obtain ⟨q', hget', -⟩ := t.kept hr hget hnot
      rw [hafter] at hget'
      cases hget'
    · obtain ⟨e, he, hk⟩ := Option.map_eq_some_iff.1 hreplaced
      obtain ⟨r₁, move, -⟩ := t.move
      exact hnot (move.mem_gone_of_replaced he (hk ▸ hget))

/-- **The profiles that a turn dismisses** are those whose domain has none afterwards, and the
    one whose place was taken. -/
theorem gone_eq (t : r.Turn op entered tried gone stored r') (hr : r.Keyed) :
    gone = r.profiles.values.filter fun q =>
      r'.get? q.fqdn = none ∨ entered.map (·.fqdn) = some q.fqdn := by
  obtain ⟨r₁, move, -⟩ := t.move
  calc
    gone = r.profiles.values.filter fun q => decide (q ∈ gone) :=
      (filter_mem_of_sublist move.gone_sublist hr.nodup_values).symm
    _ = _ := by
      apply List.filter_congr
      intro q hq
      rw [decide_eq_decide]
      exact t.mem_gone_iff hr (hr.get?_of_mem_values hq)

end Turn

end Registry

namespace Manager

variable {m : Manager} {p : Platform} {op : Operation} {q : Profile}

/-- The profiles that an operation retires: those whose domain has none afterwards, and the one
    in whose place another was entered. -/
def retired (m : Manager) (p : Platform) (op : Operation) : List Profile :=
  m.registry.profiles.values.filter fun q =>
    (m.perform p op).2.registry.get? q.fqdn = none ∨
      (m.entered? p op).map (·.fqdn) = some q.fqdn

/-- **The turn of an operation**, with the profiles that it retires. -/
theorem turn_retires (hr : m.registry.Keyed) (hop : ∀ s, op ≠ .restore s) :
    ∃ tried stored,
      m.registry.Turn op (m.entered? p op) tried (m.retired p op) stored
        (m.perform p op).2.registry ∧
      m.Does (m.perform p op).2
        (turnDeeds (m.entered? p op) tried (m.retired p op) stored) := by
  obtain ⟨tried, gone, stored, turn, does⟩ := turn_perform (m := m) (p := p) hop
  have hgone : gone = m.retired p op := turn.gone_eq hr
  exact ⟨tried, stored, hgone ▸ turn, hgone ▸ does⟩

end Manager

end Hotspot
