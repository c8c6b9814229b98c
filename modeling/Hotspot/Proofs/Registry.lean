/-
  Hotspot/Proofs/Registry.lean
  ============================
  **The registry by home domain.**

  What each operation on the registry does to the profile of a domain, to the packages that
  own a profile installed for the user, and to the two facts that every registry in use
  satisfies: a profile is entered under its own home domain (`Keyed`), and its number was
  given before (`Numbered`).

  Between two points of a profile's life its configuration may get another carrier and its
  flags may change, but not what identifies the installation (`SameInstallation`).  A registry
  that only lost profiles, or whose profiles only changed in that way, is one by `Upkeep`; one
  that did not lose any is one that `Stays`.
-/
import Hotspot.Proofs.OrderedMap
import Hotspot.Registry

namespace Hotspot

/-! ### Profiles at different times -/

/-- `q'` is `q` at another time: the same installation, with whatever may change of it. -/
structure Profile.SameInstallation (q q' : Profile) : Prop where
  fqdn : q'.fqdn = q.fqdn
  index : q'.index = q.index
  owner : q'.owner = q.owner
  source : q'.source = q.source
  credentialType : q'.credentialType = q.credentialType

namespace Profile.SameInstallation

theorem refl (q : Profile) : q.SameInstallation q := ⟨rfl, rfl, rfl, rfl, rfl⟩

theorem trans {q₁ q₂ q₃ : Profile} (h : q₁.SameInstallation q₂) (h' : q₂.SameInstallation q₃) :
    q₁.SameInstallation q₃ :=
  ⟨h'.fqdn.trans h.fqdn, h'.index.trans h.index, h'.owner.trans h.owner,
    h'.source.trans h.source, h'.credentialType.trans h.credentialType⟩

theorem isSaved {q q' : Profile} (h : q.SameInstallation q') : q'.isSaved = q.isSaved := by
  rw [Profile.isSaved, Profile.isSaved, h.source]

theorem isSavedBy {q q' : Profile} (h : q.SameInstallation q') (package : String) :
    q'.isSavedBy package = q.isSavedBy package := by
  rw [Profile.isSavedBy, Profile.isSavedBy, h.isSaved, h.owner]

theorem withCarrier (q : Profile) (carrierId : Int32) :
    q.SameInstallation (q.withCarrier carrierId) :=
  ⟨rfl, rfl, rfl, rfl, rfl⟩

theorem autoJoin (q : Profile) (enabled : Bool) :
    q.SameInstallation { q with autoJoin := enabled } :=
  ⟨rfl, rfl, rfl, rfl, rfl⟩

theorem hasEverConnected (q : Profile) (b : Bool) :
    q.SameInstallation { q with hasEverConnected := b } :=
  ⟨rfl, rfl, rfl, rfl, rfl⟩

end Profile.SameInstallation

/-- `q'` is `q` at another time, with whatever may change of it but another configuration: only
    the carrier in it may be another one. -/
structure Profile.SameSubscription (q q' : Profile) : Prop extends SameInstallation q q' where
  config : { q'.config with carrierId := q.config.carrierId } = q.config

namespace Profile.SameSubscription

theorem refl (q : Profile) : q.SameSubscription q := ⟨.refl q, rfl⟩

theorem trans {q₁ q₂ q₃ : Profile} (h : q₁.SameSubscription q₂) (h' : q₂.SameSubscription q₃) :
    q₁.SameSubscription q₃ := by
  refine ⟨h.toSameInstallation.trans h'.toSameInstallation, ?_⟩
  calc
    { q₃.config with carrierId := q₁.config.carrierId } =
        { q₂.config with carrierId := q₁.config.carrierId } := by rw [← h'.config]
    _ = q₁.config := h.config

theorem withCarrier (q : Profile) (carrierId : Int32) :
    q.SameSubscription (q.withCarrier carrierId) :=
  ⟨.withCarrier q carrierId, rfl⟩

theorem autoJoin (q : Profile) (enabled : Bool) :
    q.SameSubscription { q with autoJoin := enabled } :=
  ⟨.autoJoin q enabled, rfl⟩

theorem hasEverConnected (q : Profile) (b : Bool) :
    q.SameSubscription { q with hasEverConnected := b } :=
  ⟨.hasEverConnected q b, rfl⟩

end Profile.SameSubscription

theorem Profile.isSavedBy_iff {q : Profile} {package : String} :
    q.isSavedBy package = true ↔ q.isSaved = true ∧ q.owner.package = package := by
  rw [isSavedBy, Bool.and_eq_true, beq_iff_eq]

namespace Registry

/-! ### Look-ups -/

theorem get?_insert (r : Registry) (q : Profile) (fqdn : String) :
    (r.insert q).get? fqdn = if fqdn = q.fqdn then some q else r.get? fqdn :=
  OrderedMap.get?_insert ..

theorem get?_erase (r : Registry) (fqdn fqdn' : String) :
    (r.erase fqdn).get? fqdn' = if fqdn' = fqdn then none else r.get? fqdn' :=
  OrderedMap.get?_erase ..

theorem get?_modify (r : Registry) (fqdn fqdn' : String) (f : Profile → Profile) :
    (r.modify fqdn f).get? fqdn' = if fqdn' = fqdn then (r.get? fqdn').map f else r.get? fqdn' :=
  OrderedMap.get?_modify ..

theorem get?_eraseSavedBy (r : Registry) (package fqdn : String) :
    (r.eraseSavedBy package).get? fqdn = (r.get? fqdn).filter fun q => !q.isSavedBy package :=
  OrderedMap.get?_filter ..

theorem mem_values_iff {r : Registry} {q : Profile} :
    q ∈ r.profiles.values ↔ ∃ fqdn, r.get? fqdn = some q :=
  OrderedMap.mem_values_iff

theorem hasSavedBy_iff {r : Registry} {package : String} :
    r.hasSavedBy package = true ↔ ∃ fqdn q, r.get? fqdn = some q ∧ q.isSavedBy package = true := by
  rw [hasSavedBy, List.any_eq_true]
  constructor
  · rintro ⟨q, hq, hsaved⟩
    obtain ⟨fqdn, hget⟩ := mem_values_iff.1 hq
    exact ⟨fqdn, q, hget, hsaved⟩
  · rintro ⟨fqdn, q, hget, hsaved⟩
    exact ⟨q, mem_values_iff.2 ⟨fqdn, hget⟩, hsaved⟩

theorem mem_savedBy_iff {r : Registry} {package : String} {q : Profile} :
    q ∈ r.savedBy package ↔ (∃ fqdn, r.get? fqdn = some q) ∧ q.isSavedBy package = true := by
  rw [savedBy, List.mem_filter, mem_values_iff]

/-! ### Owners -/

theorem hasSavedBy_of_insert {r : Registry} {q : Profile} {package : String}
    (h : (r.insert q).hasSavedBy package = true) :
    q.isSavedBy package = true ∨ r.hasSavedBy package = true := by
  obtain ⟨fqdn, q', hget, hsaved⟩ := hasSavedBy_iff.1 h
  rw [get?_insert] at hget
  by_cases hf : fqdn = q.fqdn
  · rw [if_pos hf] at hget
    exact Or.inl (Option.some.inj hget ▸ hsaved)
  · rw [if_neg hf] at hget
    exact Or.inr (hasSavedBy_iff.2 ⟨fqdn, q', hget, hsaved⟩)

theorem hasSavedBy_insert_self {r : Registry} {q : Profile} {package : String}
    (h : q.isSavedBy package = true) : (r.insert q).hasSavedBy package = true :=
  hasSavedBy_iff.2 ⟨q.fqdn, q, by rw [get?_insert, if_pos rfl], h⟩

theorem hasSavedBy_insert {r : Registry} {q : Profile} {package : String}
    (h : r.hasSavedBy package = true) :
    (r.insert q).hasSavedBy package = true ∨
      ∃ old, r.get? q.fqdn = some old ∧ old.isSavedBy package = true := by
  obtain ⟨fqdn, q', hget, hsaved⟩ := hasSavedBy_iff.1 h
  by_cases hf : fqdn = q.fqdn
  · exact Or.inr ⟨q', hf ▸ hget, hsaved⟩
  · exact Or.inl (hasSavedBy_iff.2 ⟨fqdn, q', by rw [get?_insert, if_neg hf, hget], hsaved⟩)

theorem hasSavedBy_of_erase {r : Registry} {fqdn package : String}
    (h : (r.erase fqdn).hasSavedBy package = true) : r.hasSavedBy package = true := by
  obtain ⟨fqdn', q, hget, hsaved⟩ := hasSavedBy_iff.1 h
  rw [get?_erase] at hget
  by_cases hf : fqdn' = fqdn
  · rw [if_pos hf] at hget
    cases hget
  · rw [if_neg hf] at hget
    exact hasSavedBy_iff.2 ⟨fqdn', q, hget, hsaved⟩

theorem hasSavedBy_erase {r : Registry} {fqdn package : String}
    (h : r.hasSavedBy package = true) :
    (r.erase fqdn).hasSavedBy package = true ∨
      ∃ old, r.get? fqdn = some old ∧ old.isSavedBy package = true := by
  obtain ⟨fqdn', q, hget, hsaved⟩ := hasSavedBy_iff.1 h
  by_cases hf : fqdn' = fqdn
  · exact Or.inr ⟨q, hf ▸ hget, hsaved⟩
  · exact Or.inl (hasSavedBy_iff.2 ⟨fqdn', q, by rw [get?_erase, if_neg hf, hget], hsaved⟩)

theorem hasSavedBy_eraseSavedBy {r : Registry} {package package' : String} :
    (r.eraseSavedBy package).hasSavedBy package' = true ↔
      package' ≠ package ∧ r.hasSavedBy package' = true := by
  simp only [hasSavedBy_iff, get?_eraseSavedBy, Option.filter_eq_some_iff, Bool.not_eq_true']
  constructor
  · rintro ⟨fqdn, q, ⟨hget, hnot⟩, hsaved⟩
    refine ⟨fun he => ?_, fqdn, q, hget, hsaved⟩
    rw [he, hnot] at hsaved
    cases hsaved
  · rintro ⟨hne, fqdn, q, hget, hsaved⟩
    refine ⟨fqdn, q, ⟨hget, Bool.eq_false_iff.2 fun hc => hne ?_⟩, hsaved⟩
    exact (Profile.isSavedBy_iff.1 hsaved).2.symm.trans (Profile.isSavedBy_iff.1 hc).2

theorem eraseSavedBy_eq_self {r : Registry} {package : String} (h : r.savedBy package = []) :
    r.eraseSavedBy package = r := by
  have hprofiles : (r.profiles.filter fun _ q => !q.isSavedBy package) = r.profiles := by
    apply OrderedMap.ext_get?
    intro fqdn
    rw [OrderedMap.get?_filter]
    cases hq : r.profiles.get? fqdn with
    | none => rfl
    | some q =>
      have hnot : q ∉ r.savedBy package := h ▸ List.not_mem_nil
      rw [mem_savedBy_iff, not_and, Bool.not_eq_true] at hnot
      rw [Option.filter_some, hnot ⟨fqdn, hq⟩]
      rfl
  rw [eraseSavedBy, hprofiles]

theorem hasSavedBy_modify (r : Registry) (fqdn package : String) {f : Profile → Profile}
    (hf : ∀ q : Profile, q.SameInstallation (f q)) :
    (r.modify fqdn f).hasSavedBy package = r.hasSavedBy package := by
  rw [Bool.eq_iff_iff, hasSavedBy_iff, hasSavedBy_iff]
  constructor
  · rintro ⟨fqdn', q', hget, hsaved⟩
    rw [get?_modify] at hget
    by_cases hk : fqdn' = fqdn
    · rw [if_pos hk, Option.map_eq_some_iff] at hget
      obtain ⟨q, hq, rfl⟩ := hget
      exact ⟨fqdn', q, hq, (hf q).isSavedBy package ▸ hsaved⟩
    · rw [if_neg hk] at hget
      exact ⟨fqdn', q', hget, hsaved⟩
  · rintro ⟨fqdn', q, hget, hsaved⟩
    by_cases hk : fqdn' = fqdn
    · refine ⟨fqdn', f q, ?_, (hf q).isSavedBy package ▸ hsaved⟩
      rw [get?_modify, if_pos hk, hget, Option.map_some]
    · exact ⟨fqdn', q, by rw [get?_modify, if_neg hk, hget], hsaved⟩

/-! ### Upkeep -/

/-- `r'` is `r` without some of its profiles, and with others at another time of their life.
    No number was given. -/
structure Upkeep (r r' : Registry) : Prop where
  nextIndex : r'.nextIndex = r.nextIndex
  origin : ∀ fqdn q', r'.get? fqdn = some q' →
    ∃ q, r.get? fqdn = some q ∧ q.SameInstallation q'

namespace Upkeep

theorem refl (r : Registry) : Upkeep r r := ⟨rfl, fun _ q h => ⟨q, h, .refl q⟩⟩

theorem trans {r₁ r₂ r₃ : Registry} (h : Upkeep r₁ r₂) (h' : Upkeep r₂ r₃) : Upkeep r₁ r₃ := by
  refine ⟨h'.nextIndex.trans h.nextIndex, fun fqdn q₃ h₃ => ?_⟩
  obtain ⟨q₂, h₂, hsame'⟩ := h'.origin fqdn q₃ h₃
  obtain ⟨q₁, h₁, hsame⟩ := h.origin fqdn q₂ h₂
  exact ⟨q₁, h₁, hsame.trans hsame'⟩

theorem erase (r : Registry) (fqdn : String) : Upkeep r (r.erase fqdn) := by
  refine ⟨rfl, fun fqdn' q h => ⟨q, ?_, .refl q⟩⟩
  rw [get?_erase] at h
  by_cases hk : fqdn' = fqdn
  · rw [if_pos hk] at h
    cases h
  · rwa [if_neg hk] at h

theorem eraseSavedBy (r : Registry) (package : String) : Upkeep r (r.eraseSavedBy package) := by
  refine ⟨rfl, fun fqdn q h => ⟨q, ?_, .refl q⟩⟩
  rw [get?_eraseSavedBy, Option.filter_eq_some_iff] at h
  exact h.1

theorem modify (r : Registry) (fqdn : String) {f : Profile → Profile}
    (hf : ∀ q : Profile, q.SameInstallation (f q)) : Upkeep r (r.modify fqdn f) := by
  refine ⟨rfl, fun fqdn' q' h => ?_⟩
  rw [get?_modify] at h
  by_cases hk : fqdn' = fqdn
  · rw [if_pos hk, Option.map_eq_some_iff] at h
    obtain ⟨q, hq, rfl⟩ := h
    exact ⟨q, hq, hf q⟩
  · rw [if_neg hk] at h
    exact ⟨q', h, .refl q'⟩

end Upkeep

/-- `r'` is `r` with all of its profiles, at another time of their life. -/
structure Stays (r r' : Registry) : Prop extends Upkeep r r' where
  kept : ∀ fqdn q, r.get? fqdn = some q → ∃ q', r'.get? fqdn = some q' ∧ q.SameInstallation q'

namespace Stays

theorem refl (r : Registry) : Stays r r := ⟨.refl r, fun _ q h => ⟨q, h, .refl q⟩⟩

theorem trans {r₁ r₂ r₃ : Registry} (h : Stays r₁ r₂) (h' : Stays r₂ r₃) : Stays r₁ r₃ := by
  refine ⟨h.toUpkeep.trans h'.toUpkeep, fun fqdn q₁ h₁ => ?_⟩
  obtain ⟨q₂, h₂, hsame⟩ := h.kept fqdn q₁ h₁
  obtain ⟨q₃, h₃, hsame'⟩ := h'.kept fqdn q₂ h₂
  exact ⟨q₃, h₃, hsame.trans hsame'⟩

theorem modify (r : Registry) (fqdn : String) {f : Profile → Profile}
    (hf : ∀ q : Profile, q.SameInstallation (f q)) : Stays r (r.modify fqdn f) := by
  refine ⟨.modify r fqdn hf, fun fqdn' q h => ?_⟩
  rw [get?_modify]
  by_cases hk : fqdn' = fqdn
  · exact ⟨f q, by rw [if_pos hk, h, Option.map_some], hf q⟩
  · exact ⟨q, by rw [if_neg hk, h], .refl q⟩

end Stays

/-! ### Keys and numbers -/

/-- Every profile is entered under its own home domain. -/
def Keyed (r : Registry) : Prop := ∀ fqdn q, r.get? fqdn = some q → q.fqdn = fqdn

/-- Every profile has a number below the next one. -/
def Numbered (r : Registry) : Prop := ∀ fqdn q, r.get? fqdn = some q → q.index < r.nextIndex

theorem keyed_empty : empty.Keyed := fun _ _ h => nomatch h

theorem numbered_empty : empty.Numbered := fun _ _ h => nomatch h

theorem Keyed.upkeep {r r' : Registry} (h : r.Keyed) (hu : Upkeep r r') : r'.Keyed := by
  intro fqdn q' hget
  obtain ⟨q, hq, hsame⟩ := hu.origin fqdn q' hget
  exact hsame.fqdn.trans (h fqdn q hq)

theorem Keyed.insert {r : Registry} (h : r.Keyed) (q : Profile) : (r.insert q).Keyed := by
  intro fqdn q' hget
  rw [get?_insert] at hget
  by_cases hk : fqdn = q.fqdn
  · rw [if_pos hk] at hget
    exact (Option.some.inj hget ▸ hk).symm
  · rw [if_neg hk] at hget
    exact h fqdn q' hget

theorem Numbered.upkeep {r r' : Registry} (h : r.Numbered) (hu : Upkeep r r') : r'.Numbered := by
  intro fqdn q' hget
  obtain ⟨q, hq, hsame⟩ := hu.origin fqdn q' hget
  rw [hsame.index, hu.nextIndex]
  exact h fqdn q hq

theorem Keyed.ne_of_ne {r : Registry} (h : r.Keyed) :
    r.profiles.values.Pairwise fun q q' => q.fqdn ≠ q'.fqdn :=
  OrderedMap.pairwise_values h

/-! ### Restored registries -/

theorem get?_restore {r : Registry} {s : PersistedState} {fqdn : String} {q : Profile}
    (h : (r.restore s).get? fqdn = some q) : q ∈ s.profiles ∧ q.fqdn = fqdn := by
  have hmem := OrderedMap.mem_of_get?_ofList h
  obtain ⟨q', hq', he⟩ := List.mem_map.1 hmem
  obtain ⟨hf, rfl⟩ := Prod.mk.inj he
  exact ⟨hq', hf⟩

theorem get?_restore_of_mem (r : Registry) {s : PersistedState} {q : Profile}
    (hs : (s.profiles.map (·.fqdn)).Nodup) (hq : q ∈ s.profiles) :
    (r.restore s).get? q.fqdn = some q := by
  apply OrderedMap.get?_ofList_of_mem
  · rw [List.map_map]
    exact hs
  · exact List.mem_map.2 ⟨q, hq, rfl⟩

theorem keyed_restore (r : Registry) (s : PersistedState) : (r.restore s).Keyed :=
  fun _ _ h => (get?_restore h).2

end Registry

end Hotspot
