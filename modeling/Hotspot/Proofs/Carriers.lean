/-
  Hotspot/Proofs/Carriers.lean
  ============================
  **Matching a scan writes carriers, and nothing else.**

  Matching reads the registry, but each home match is an occasion to ask for the profile's
  carrier, so the registry may change while the access points of a scan are gone through.  What
  one such question does is an equation (`refreshCarrier_registry`): the profile of the domain
  gets the carrier that the platform names for its subscriber number.  A whole scan is then
  told by what it asked: a profile either stayed as it was, or has a carrier that one of the
  calls named for its own number (`recarries_matchAll`), and only the domains that the scan has
  a home group of are touched at all (`get?_matchAll`).
-/
import Hotspot.Proofs.Runs

namespace Hotspot

/-! ### One carrier -/

namespace Profile

def imsi? (q : Profile) : Option String := q.config.sim.bind (·.fullImsi?)

/-- The profile with the carrier of its subscriber number, if there is one. -/
def recarried (q : Profile) (resolve : String → Option Int32) : Profile :=
  match q.imsi?.bind resolve with
  | none => q
  | some carrierId => q.withCarrier carrierId

theorem withCarrier_self {q : Profile} {carrierId : Int32}
    (h : q.config.carrierId = some carrierId) : q.withCarrier carrierId = q := by
  unfold withCarrier
  rw [← h]

/-- With its carrier a profile is the same subscription. -/
theorem sameSubscription_recarried (q : Profile) (resolve : String → Option Int32) :
    q.SameSubscription (q.recarried resolve) := by
  unfold recarried
  split
  · exact .refl q
  · exact .withCarrier q _

/-- `q'` is `q`, perhaps with a carrier that one of the calls named for its subscriber number. -/
def RecarriedBy (calls : List Call) (q q' : Profile) : Prop :=
  q' = q ∨ ∃ imsi carrierId, q.imsi? = some imsi ∧ .resolve imsi (some carrierId) ∈ calls ∧
    q' = q.withCarrier carrierId

namespace RecarriedBy

variable {calls calls' : List Call} {q q₁ q' : Profile}

theorem mono (h : q.RecarriedBy calls q') (hcalls : ∀ c ∈ calls, c ∈ calls') :
    q.RecarriedBy calls' q' := by
  rcases h with rfl | ⟨imsi, carrierId, himsi, hcall, rfl⟩
  · exact Or.inl rfl
  · exact Or.inr ⟨imsi, carrierId, himsi, hcalls _ hcall, rfl⟩

/-- The last carrier stays: the number it was named for is that of the first profile too. -/
theorem trans (h : q.RecarriedBy calls q₁) (h' : q₁.RecarriedBy calls q') :
    q.RecarriedBy calls q' := by
  rcases h with rfl | ⟨imsi, carrierId, himsi, hcall, rfl⟩
  · exact h'
  · rcases h' with rfl | ⟨imsi', carrierId', himsi', hcall', rfl⟩
    · exact Or.inr ⟨imsi, carrierId, himsi, hcall, rfl⟩
    · exact Or.inr ⟨imsi', carrierId', himsi', hcall', rfl⟩

end RecarriedBy

end Profile

namespace Registry

/-- Changes that agree on the profile of a domain are one change. -/
theorem modify_congr {r : Registry} {fqdn : String} {f g : Profile → Profile}
    (h : ∀ q, r.get? fqdn = some q → f q = g q) : r.modify fqdn f = r.modify fqdn g := by
  have hprofiles : r.profiles.modify fqdn f = r.profiles.modify fqdn g := by
    apply OrderedMap.ext_get?
    intro fqdn'
    rw [OrderedMap.get?_modify, OrderedMap.get?_modify]
    by_cases hfqdn : fqdn' = fqdn
    · rw [if_pos hfqdn, if_pos hfqdn]
      exact Option.map_congr (hfqdn ▸ h)
    · rw [if_neg hfqdn, if_neg hfqdn]
  rw [modify, modify, hprofiles]

theorem modify_eq_self {r : Registry} {fqdn : String} {f : Profile → Profile}
    (h : ∀ q, r.get? fqdn = some q → f q = q) : r.modify fqdn f = r := by
  have hprofiles : r.profiles.modify fqdn id = r.profiles := by
    apply OrderedMap.ext_get?
    intro fqdn'
    rw [OrderedMap.get?_modify, Option.map_id]
    split
    · rename_i hfqdn
      rw [hfqdn]
      rfl
    · rfl
  rw [modify_congr (g := id) h, modify, hprofiles]

end Registry

namespace Manager

variable (m : Manager) (p : Platform)

/-- Asking anew for a carrier: of a profile without a whole number nothing is asked; an answer
    that names another carrier than the profile has is entered and stored. -/
theorem refreshCarrier_told (fqdn : String) :
    ((m.registry.get? fqdn).bind (·.imsi?) = none ∧ m.refreshCarrier p fqdn = m) ∨
    ∃ q imsi, m.registry.get? fqdn = some q ∧ q.imsi? = some imsi ∧
      (((∀ carrierId, p.resolve m.history imsi = some carrierId →
          q.config.carrierId = some carrierId) ∧
        m.refreshCarrier p fqdn = m.record (.resolve imsi (p.resolve m.history imsi))) ∨
      ∃ carrierId, p.resolve m.history imsi = some carrierId ∧
        m.refreshCarrier p fqdn = { m.record (.resolve imsi (some carrierId)) with
          registry := m.registry.modify fqdn (·.withCarrier carrierId) }.persist p) := by
  unfold refreshCarrier updateCarrier
  cases m.registry.get? fqdn with
  | none => exact Or.inl ⟨rfl, rfl⟩
  | some q =>
    cases himsi : q.config.sim.bind (·.fullImsi?) with
    | none => exact Or.inl ⟨himsi, by simp only [himsi]⟩
    | some imsi =>
      refine Or.inr ⟨q, imsi, rfl, himsi, ?_⟩
      simp only [himsi, resolve]
      cases hanswer : p.resolve m.history imsi with
      | none => exact Or.inl ⟨fun _ h => absurd h.symm (Option.some_ne_none _), rfl⟩
      | some carrierId =>
        by_cases hsame : q.config.carrierId = some carrierId
        · refine Or.inl ⟨fun c hc => Option.some.inj hc ▸ hsame, ?_⟩
          simp only [if_pos hsame]
        · refine Or.inr ⟨carrierId, rfl, ?_⟩
          simp only [if_neg hsame]
          rfl

/-- **What asking for a carrier does to the registry.** -/
theorem refreshCarrier_registry (fqdn : String) :
    (m.refreshCarrier p fqdn).registry =
      m.registry.modify fqdn (·.recarried (p.resolve m.history)) := by
  have honly : ∀ {q : Profile} {f : Profile → Profile}, m.registry.get? fqdn = some q →
      f q = q.recarried (p.resolve m.history) →
      m.registry.modify fqdn f = m.registry.modify fqdn (·.recarried (p.resolve m.history)) := by
    intro q f hget hf
    refine Registry.modify_congr fun q' hq' => ?_
    rw [hget, Option.some.injEq] at hq'
    exact hq' ▸ hf
  rcases m.refreshCarrier_told p fqdn with ⟨hnone, he⟩ |
    ⟨q, imsi, hget, himsi, ⟨hsame, he⟩ | ⟨carrierId, hanswer, he⟩⟩ <;> rw [he]
  · refine (Registry.modify_eq_self fun q hget => ?_).symm
    rw [hget, Option.bind_some] at hnone
    simp only [Profile.recarried, hnone, Option.bind_none]
  · rw [record_registry, ← honly (f := id) hget]
    · exact (Registry.modify_eq_self fun _ _ => rfl).symm
    · unfold Profile.recarried
      rw [himsi, Option.bind_some]
      cases hanswer : p.resolve m.history imsi with
      | none => rfl
      | some carrierId => exact (Profile.withCarrier_self (hsame carrierId hanswer)).symm
  · rw [persist_registry, ← honly (f := (·.withCarrier carrierId)) hget]
    simp only [Profile.recarried, himsi, Option.bind_some, hanswer]

/-- A profile that is entered is there with the carrier of its subscriber number. -/
theorem enter_registry (q : Profile) (watch : Bool) :
    ∃ h, (m.enter p q watch).registry =
      (m.registry.insert q).modify q.fqdn (·.recarried (p.resolve h)) := by
  have hcommit : ∃ h, (m.commit p q).registry =
      (m.registry.insert q).modify q.fqdn (·.recarried (p.resolve h)) := by
    unfold commit
    dsimp only
    rw [refreshCarrier_registry, releaseReplaced_registry, persist_registry,
      retireReplaced_registry]
    exact ⟨_, rfl⟩
  unfold enter
  rw [increment_registry]
  split
  · rw [startWatching_registry]
    exact hcommit
  · exact hcommit

/-- A profile that is entered is found under its domain. -/
theorem get?_enter_self (q : Profile) (watch : Bool) :
    ∃ h, (m.enter p q watch).registry.get? q.fqdn = some (q.recarried (p.resolve h)) := by
  obtain ⟨h, hregistry⟩ := m.enter_registry p q watch
  refine ⟨h, ?_⟩
  rw [hregistry, Registry.get?_modify, if_pos rfl, Registry.get?_insert, if_pos rfl,
    Option.map_some]

/-! ### What a scan asked -/

/-- From `m` to `m'` nothing happened to the profiles but new carriers, each one named by a call
    for the subscriber number of its profile. -/
def Recarries (m m' : Manager) : Prop :=
  ∃ calls, m'.history = calls ++ m.history ∧ ∀ fqdn q', m'.registry.get? fqdn = some q' →
    ∃ q, m.registry.get? fqdn = some q ∧ q.RecarriedBy calls q'

namespace Recarries

variable {m m₁ m₂ : Manager}

theorem trans (h : m.Recarries m₁) (h' : m₁.Recarries m₂) : m.Recarries m₂ := by
  obtain ⟨calls, hcalls, horigin⟩ := h
  obtain ⟨calls', hcalls', horigin'⟩ := h'
  refine ⟨calls' ++ calls, by rw [hcalls', hcalls, List.append_assoc], fun fqdn q₂ hq₂ => ?_⟩
  obtain ⟨q₁, hq₁, hrecarried'⟩ := horigin' fqdn q₂ hq₂
  obtain ⟨q, hq, hrecarried⟩ := horigin fqdn q₁ hq₁
  exact ⟨q, hq, (hrecarried.mono fun c hc => List.mem_append_right _ hc).trans
    (hrecarried'.mono fun c hc => List.mem_append_left _ hc)⟩

theorem quiet (h : Quiet m m₁) : m.Recarries m₁ := by
  obtain ⟨calls, hcalls, -⟩ := h.history
  refine ⟨calls, hcalls, fun fqdn q hq => ⟨q, ?_, Or.inl rfl⟩⟩
  rw [← h.registry, hq]

theorem refreshCarrier (m : Manager) (p : Platform) (fqdn : String) :
    m.Recarries (m.refreshCarrier p fqdn) := by
  rcases m.refreshCarrier_told p fqdn with ⟨-, he⟩ |
    ⟨q, imsi, hget, himsi, ⟨-, he⟩ | ⟨carrierId, -, he⟩⟩ <;> rw [he]
  · exact quiet (.refl m)
  · exact quiet (.record m rfl)
  · refine ⟨[.persist true _ _, .resolve imsi (some carrierId)], rfl, ?_⟩
    intro fqdn' q' hq'
    rw [persist_registry, Registry.get?_modify] at hq'
    by_cases hfqdn : fqdn' = fqdn
    · rw [if_pos hfqdn, hfqdn, hget, Option.map_some, Option.some.injEq] at hq'
      refine ⟨q, hfqdn ▸ hget, Or.inr ⟨imsi, carrierId, himsi, ?_, hq'.symm⟩⟩
      exact List.mem_cons_of_mem _ List.mem_cons_self
    · rw [if_neg hfqdn] at hq'
      exact ⟨q', hq', Or.inl rfl⟩

end Recarries

/-- **A scan changes no profile but for carriers that it asked for.** -/
theorem recarries_matchAll (aps : List AccessPoint) : m.Recarries (m.matchAll p aps).2 := by
  apply matchAll_induction (I := m.Recarries)
  · intro m₁ m₂ hq h
    exact h.trans (.quiet hq)
  · intro m₁ fqdn h
    exact h.trans (.refreshCarrier m₁ p fqdn)
  · exact .quiet (.refl m)

end Manager

/-! ### Groups -/

/-- The access points under a domain and a class, none when there is no such group. -/
def MatchGroups.group (g : MatchGroups) (fqdn : String) (c : NetworkClass) : List AccessPoint :=
  ((g.get? fqdn).bind (·.get? c)).getD []

theorem MatchGroups.group_add (g : MatchGroups) (fqdn fqdn' : String) (c c' : NetworkClass)
    (ap : AccessPoint) :
    (g.add fqdn c ap).group fqdn' c' =
      if fqdn' = fqdn ∧ c' = c then g.group fqdn c ++ [ap] else g.group fqdn' c' := by
  unfold group add
  rw [OrderedMap.get?_insert]
  by_cases hfqdn : fqdn' = fqdn
  · rw [if_pos hfqdn, Option.bind_some, OrderedMap.get?_insert]
    by_cases hc : c' = c
    · rw [if_pos hc, if_pos ⟨hfqdn, hc⟩, Option.getD_some]
      cases g.get? fqdn <;> rfl
    · rw [if_neg hc, if_neg (fun h => hc h.2), hfqdn]
      cases g.get? fqdn <;> rfl
  · rw [if_neg hfqdn, if_neg (fun h => hfqdn h.1)]

namespace Manager

variable (m : Manager) (p : Platform)

/-- **A scan leaves the profiles of the domains that it has no home group of.** -/
theorem get?_matchAll (aps : List AccessPoint) (fqdn : String)
    (h : (m.matchAll p aps).1.group fqdn .home = []) :
    (m.matchAll p aps).2.registry.get? fqdn = m.registry.get? fqdn := by
  -- Groups only grow, so a group that is empty in the end was empty when each match was added.
  suffices hkept : ∀ (s : MatchGroups × Manager), s = m.matchAll p aps →
      s.1.group fqdn .home = [] → s.2.registry.get? fqdn = m.registry.get? fqdn from
    hkept _ rfl h
  rintro _ rfl
  unfold matchAll
  refine List.foldlRecOn (motive := fun (s : MatchGroups × Manager) =>
    s.1.group fqdn .home = [] → s.2.registry.get? fqdn = m.registry.get? fqdn) aps _
    (fun _ => rfl) ?_
  intro s hs ap _
  unfold groupMatches
  refine List.foldlRecOn (motive := fun (s : MatchGroups × Manager) =>
    s.1.group fqdn .home = [] → s.2.registry.get? fqdn = m.registry.get? fqdn) _ _ ?_ ?_
  · intro hempty
    exact (congrArg (·.get? fqdn) (Quiet.matchOne s.2 p ap).registry).trans (hs hempty)
  · intro s' hs' f _ hempty
    dsimp only at hempty ⊢
    rw [MatchGroups.group_add] at hempty
    by_cases hhome : fqdn = f.profile.fqdn ∧ NetworkClass.home = f.networkClass
    · rw [if_pos hhome] at hempty
      exact absurd hempty (List.append_ne_nil_of_right_ne_nil _ (List.cons_ne_nil _ _))
    · rw [if_neg hhome] at hempty
      rw [← hs' hempty]
      split
      · rename_i hclass
        rw [refreshCarrier_registry, Registry.get?_modify, if_neg]
        exact fun hfqdn => hhome ⟨hfqdn, hclass.symm⟩
      · rfl

end Manager

end Hotspot
