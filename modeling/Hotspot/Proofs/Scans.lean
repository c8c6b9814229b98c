/-
  Hotspot/Proofs/Scans.lean
  =========================
  **A scan is matched one access point at a time.**

  The rule of precedence is stated here without the order in which the code looks at things: a
  profile gives its domain a class when its subscription has not ended, its verdict is that
  class, and either the class is home or no profile is at home (`Registry.Gives`).

  Going over a scan changes the registry on the way, but only carriers, and no verdict depends on
  a carrier; the cache it leaves alone.  So what one access point finds does not depend on those
  before it, and a group is the part of the scan that finds it, in the order of the scan
  (`group_matchAll`).  No group and no domain comes out empty (`MatchGroups.Full`).
-/
import Hotspot.Proofs.Carriers
import Hotspot.Proofs.Numbering

namespace Hotspot

/-! ### The rule of precedence -/

section Precedence

variable (matchers : Matchers) (now : UInt64) (es : Anqp.Elements) (rc : Option RoamingConsortium)

/-- A profile whose subscription has not ended puts a network in a class. -/
def Profile.Puts (c : NetworkClass) (q : Profile) : Prop :=
  q.isExpired now = false ∧ matchers q.credentialType q es rc = c.verdict

instance (c : NetworkClass) (q : Profile) : Decidable (q.Puts matchers now es rc c) :=
  inferInstanceAs (Decidable (_ ∧ _))

/-- **The rule of precedence.**  The installed profiles give a domain a class when its profile
    puts the network there; roaming counts only when no profile is at home. -/
def Registry.Gives (r : Registry) (domain : String) (c : NetworkClass) : Prop :=
  ∃ q ∈ r.profiles.values, q.fqdn = domain ∧ q.Puts matchers now es rc c ∧
    (c = .home ∨ ∀ q' ∈ r.profiles.values, ¬ q'.Puts matchers now es rc .home)

instance (r : Registry) (domain : String) (c : NetworkClass) :
    Decidable (r.Gives matchers now es rc domain c) :=
  inferInstanceAs (Decidable (∃ q ∈ r.profiles.values, _))

variable {matchers now es rc}

theorem Verdict.class?_eq_some_iff {v : Verdict} {c : NetworkClass} :
    v.class? = some c ↔ v = c.verdict := by
  cases v <;> cases c <;> decide

theorem Profile.match?_eq_some_iff {q : Profile} {f : ProfileMatch} :
    q.match? matchers now es rc = some f ↔
      f.profile = q ∧ q.Puts matchers now es rc f.networkClass := by
  unfold match? Puts
  cases hexpired : q.isExpired now with
  | true => simp
  | false =>
    rw [if_neg Bool.false_ne_true, Option.map_eq_some_iff]
    constructor
    · rintro ⟨c, hc, rfl⟩
      exact ⟨rfl, rfl, Verdict.class?_eq_some_iff.1 hc⟩
    · rintro ⟨rfl, -, hverdict⟩
      exact ⟨f.networkClass, Verdict.class?_eq_some_iff.2 hverdict, rfl⟩

theorem mem_preferHome_iff {found : List ProfileMatch} {f : ProfileMatch} :
    f ∈ preferHome found ↔
      f ∈ found ∧ (f.networkClass = .home ∨ ∀ f' ∈ found, f'.networkClass ≠ .home) := by
  unfold preferHome
  dsimp only
  split
  · rename_i hempty
    have hnone : ∀ f' ∈ found, f'.networkClass ≠ .home := by
      intro f' hf' hhome
      have hmem : f' ∈ found.filter fun f => f.networkClass = .home :=
        List.mem_filter.2 ⟨hf', decide_eq_true hhome⟩
      rw [List.isEmpty_iff.1 hempty] at hmem
      cases hmem
    exact ⟨fun hf => ⟨hf, Or.inr hnone⟩, And.left⟩
  · rename_i hsome
    rw [List.mem_filter, decide_eq_true_eq]
    refine and_congr_right fun _ => ⟨Or.inl, fun h => h.resolve_right fun hnone => hsome ?_⟩
    rw [List.isEmpty_iff, List.filter_eq_nil_iff]
    exact fun f' hf' hhome => hnone f' hf' (of_decide_eq_true hhome)

theorem Registry.mem_applicable_iff {r : Registry} {f : ProfileMatch} :
    f ∈ r.applicable matchers now es rc ↔
      f.profile ∈ r.profiles.values ∧ f.profile.Puts matchers now es rc f.networkClass ∧
        (f.networkClass = .home ∨ ∀ q ∈ r.profiles.values, ¬ q.Puts matchers now es rc .home) := by
  have hfound : ∀ f : ProfileMatch,
      f ∈ r.profiles.values.filterMap (Profile.match? matchers now es rc) ↔
        f.profile ∈ r.profiles.values ∧ f.profile.Puts matchers now es rc f.networkClass := by
    intro f
    rw [List.mem_filterMap]
    constructor
    · rintro ⟨q, hq, hmatch⟩
      obtain ⟨rfl, hputs⟩ := Profile.match?_eq_some_iff.1 hmatch
      exact ⟨hq, hputs⟩
    · rintro ⟨hq, hputs⟩
      exact ⟨f.profile, hq, Profile.match?_eq_some_iff.2 ⟨rfl, hputs⟩⟩
  rw [applicable, mem_preferHome_iff, hfound, and_assoc]
  refine and_congr_right fun _ => and_congr_right fun _ => or_congr_right ?_
  constructor
  · intro hnone q hq hputs
    exact hnone { profile := q, networkClass := .home } ((hfound _).2 ⟨hq, hputs⟩) rfl
  · intro hnone f' hf' hhome
    obtain ⟨hq, hputs⟩ := (hfound f').1 hf'
    exact hnone f'.profile hq (hhome ▸ hputs)

/-- What applies is found by the rule, and each domain at most once. -/
theorem Registry.gives_iff {r : Registry} {domain : String} {c : NetworkClass} :
    r.Gives matchers now es rc domain c ↔
      ∃ f ∈ r.applicable matchers now es rc, f.profile.fqdn = domain ∧ f.networkClass = c := by
  constructor
  · rintro ⟨q, hq, hdomain, hputs, hfirst⟩
    exact ⟨{ profile := q, networkClass := c }, mem_applicable_iff.2 ⟨hq, hputs, hfirst⟩, hdomain,
      rfl⟩
  · rintro ⟨f, hf, hdomain, rfl⟩
    obtain ⟨hq, hputs, hfirst⟩ := mem_applicable_iff.1 hf
    exact ⟨f.profile, hq, hdomain, hputs, hfirst⟩

theorem Registry.Keyed.pairwise_applicable {r : Registry} (hr : r.Keyed) :
    (r.applicable matchers now es rc).Pairwise fun f f' => f.profile.fqdn ≠ f'.profile.fqdn := by
  have hfound : (r.profiles.values.filterMap (Profile.match? matchers now es rc)).Pairwise
      fun f f' => f.profile.fqdn ≠ f'.profile.fqdn := by
    rw [List.pairwise_filterMap]
    refine hr.ne_of_ne.imp fun {q q'} hne f hf f' hf' => ?_
    rw [(Profile.match?_eq_some_iff.1 hf).1, (Profile.match?_eq_some_iff.1 hf').1]
    exact hne
  unfold applicable preferHome
  dsimp only
  split
  · exact hfound
  · exact hfound.filter _

end Precedence

/-! ### Carriers do not count -/

def Profile.uncarried (q : Profile) : Profile :=
  { q with config := { q.config with carrierId := none } }

theorem Profile.uncarried_recarried (q : Profile) (resolve : String → Option Int32) :
    (q.recarried resolve).uncarried = q.uncarried := by
  unfold recarried
  split <;> rfl

/-- Matchers whose verdict does not depend on the carrier of the profile. -/
def Matchers.IgnoreCarriers (matchers : Matchers) : Prop :=
  ∀ type q es rc, matchers type (Profile.uncarried q) es rc = matchers type q es rc

theorem Matchers.default_ignoreCarriers : Matchers.default.IgnoreCarriers := by
  intro type q es rc
  cases type <;> rfl

namespace Registry

variable {matchers : Matchers} {now : UInt64} {es : Anqp.Elements}
  {rc : Option RoamingConsortium}

def SameButCarriers (r r' : Registry) : Prop :=
  ∀ fqdn, (r.get? fqdn).map Profile.uncarried = (r'.get? fqdn).map Profile.uncarried

theorem sameButCarriers_modify (r : Registry) (fqdn : String) (resolve : String → Option Int32) :
    (r.modify fqdn (·.recarried resolve)).SameButCarriers r := by
  intro fqdn'
  rw [get?_modify]
  by_cases hfqdn : fqdn' = fqdn
  · rw [if_pos hfqdn, Option.map_map]
    exact congrArg (Option.map · (r.get? fqdn')) (funext fun q => q.uncarried_recarried resolve)
  · rw [if_neg hfqdn]

theorem SameButCarriers.mem_values {r r' : Registry} (h : r.SameButCarriers r') {q : Profile}
    (hq : q ∈ r.profiles.values) : ∃ q' ∈ r'.profiles.values, q'.uncarried = q.uncarried := by
  obtain ⟨fqdn, hget⟩ := mem_values_iff.1 hq
  have hsame := h fqdn
  rw [hget, Option.map_some, eq_comm, Option.map_eq_some_iff] at hsame
  obtain ⟨q', hget', heq⟩ := hsame
  exact ⟨q', mem_values_iff.2 ⟨fqdn, hget'⟩, heq⟩

theorem SameButCarriers.symm {r r' : Registry} (h : r.SameButCarriers r') :
    r'.SameButCarriers r :=
  fun fqdn => (h fqdn).symm

theorem puts_uncarried (hm : matchers.IgnoreCarriers) (q : Profile) (c : NetworkClass) :
    q.uncarried.Puts matchers now es rc c ↔ q.Puts matchers now es rc c := by
  unfold Profile.Puts
  rw [show q.uncarried.credentialType = q.credentialType from rfl, hm]
  rfl

theorem puts_congr (hm : matchers.IgnoreCarriers) {q q' : Profile}
    (h : q'.uncarried = q.uncarried) (c : NetworkClass) :
    q'.Puts matchers now es rc c ↔ q.Puts matchers now es rc c := by
  rw [← puts_uncarried hm q', h, puts_uncarried hm]

/-- **The rule of precedence does not see carriers.** -/
theorem SameButCarriers.gives (hm : matchers.IgnoreCarriers) {r r' : Registry}
    (h : r.SameButCarriers r') {domain : String} {c : NetworkClass}
    (hgives : r.Gives matchers now es rc domain c) : r'.Gives matchers now es rc domain c := by
  obtain ⟨q, hq, hdomain, hputs, hfirst⟩ := hgives
  obtain ⟨q', hq', heq⟩ := h.mem_values hq
  have hfqdn : q'.fqdn = q.fqdn := congrArg (·.fqdn) heq
  refine ⟨q', hq', hfqdn.trans hdomain, (puts_congr hm heq c).2 hputs, hfirst.imp id ?_⟩
  intro hnone q₁' hq₁' hhome
  obtain ⟨q₁, hq₁, heq₁⟩ := h.symm.mem_values hq₁'
  exact hnone q₁ hq₁ ((puts_congr hm heq₁ .home).2 hhome)

end Registry

/-! ### Groups -/

namespace MatchGroups

/-- Groups without an empty group, and without a domain that has no group. -/
def Full (g : MatchGroups) : Prop :=
  ∀ domain byClass, OrderedMap.get? g domain = some byClass →
    (∃ c, byClass.contains c = true) ∧ ∀ c aps, byClass.get? c = some aps → aps ≠ []

theorem Full.add {g : MatchGroups} (h : g.Full) (fqdn : String) (c : NetworkClass)
    (ap : AccessPoint) : (g.add fqdn c ap).Full := by
  intro domain byClass hget
  unfold MatchGroups.add at hget
  rw [OrderedMap.get?_insert] at hget
  by_cases hdomain : domain = fqdn
  · rw [if_pos hdomain, Option.some.injEq] at hget
    subst hget
    refine ⟨⟨c, by simp [OrderedMap.contains]⟩, fun c' aps haps => ?_⟩
    rw [OrderedMap.get?_insert] at haps
    by_cases hc : c' = c
    · rw [if_pos hc, Option.some.injEq] at haps
      exact haps ▸ List.append_ne_nil_of_right_ne_nil _ (List.cons_ne_nil _ _)
    · rw [if_neg hc] at haps
      cases hbefore : OrderedMap.get? g fqdn with
      | none =>
        rw [hbefore] at haps
        cases haps
      | some byClass =>
        rw [hbefore] at haps
        exact (h fqdn byClass hbefore).2 c' aps haps
  · rw [if_neg hdomain] at hget
    exact h domain byClass hget

/-- In full groups, what stands under a domain and a class is the group, unless it is empty. -/
theorem Full.get?_get? {g : MatchGroups} (h : g.Full) (domain : String) (c : NetworkClass) :
    (OrderedMap.get? g domain).bind (·.get? c) =
      if g.group domain c = [] then none else some (g.group domain c) := by
  unfold group
  cases hdomain : OrderedMap.get? g domain with
  | none => rfl
  | some byClass =>
    rw [Option.bind_some]
    cases haps : byClass.get? c with
    | none => rfl
    | some aps => rw [Option.getD_some, if_neg ((h domain byClass hdomain).2 c aps haps)]

/-- In full groups, a domain under which nothing stands is not there. -/
theorem Full.get?_eq_none_iff {g : MatchGroups} (h : g.Full) (domain : String) :
    OrderedMap.get? g domain = none ↔
      ∀ c, (OrderedMap.get? g domain).bind (·.get? c) = none := by
  cases hdomain : OrderedMap.get? g domain with
  | none => exact ⟨fun _ _ => rfl, fun _ => rfl⟩
  | some byClass =>
    obtain ⟨c, hc⟩ := (h domain byClass hdomain).1
    refine ⟨fun h => (nomatch h), fun hnone => ?_⟩
    have hnone' : byClass.get? c = none := hnone c
    rw [OrderedMap.contains, hnone'] at hc
    cases hc

/-- Full groups are told by their members. -/
theorem Full.ext {g g' : MatchGroups} (h : g.Full) (h' : g'.Full)
    (hgroup : ∀ domain c, g.group domain c = g'.group domain c) : g = g' := by
  have hboth : ∀ domain c, (OrderedMap.get? g domain).bind (·.get? c) =
      (OrderedMap.get? g' domain).bind (·.get? c) := by
    intro domain c
    rw [h.get?_get?, h'.get?_get?, hgroup]
  apply OrderedMap.ext_get?
  intro domain
  cases hdomain : OrderedMap.get? g domain with
  | none =>
    refine ((h'.get?_eq_none_iff domain).2 fun c => ?_).symm
    rw [← hboth, hdomain, Option.bind_none]
  | some byClass =>
    cases hdomain' : OrderedMap.get? g' domain with
    | none =>
      have hnone := (h.get?_eq_none_iff domain).2 fun c => by
        rw [hboth, hdomain', Option.bind_none]
      rw [hdomain] at hnone
      cases hnone
    | some byClass' =>
      refine congrArg some (OrderedMap.ext_get? fun c => ?_)
      have hc := hboth domain c
      rwa [hdomain, hdomain', Option.bind_some, Option.bind_some] at hc

end MatchGroups

namespace Manager

variable {m m' : Manager} {p : Platform} {ap : AccessPoint} {domain : String} {c : NetworkClass}

/-! ### One access point -/

/-- An access point is matched under a domain with a class. -/
def Finds (m : Manager) (p : Platform) (domain : String) (c : NetworkClass) (ap : AccessPoint) :
    Prop :=
  ∃ f ∈ (m.matchOne p ap).1, f.profile.fqdn = domain ∧ f.networkClass = c

instance : Decidable (m.Finds p domain c ap) :=
  inferInstanceAs (Decidable (∃ f ∈ (m.matchOne p ap).1, _))

/-- What is found is what the rule of precedence gives for the metadata on record. -/
theorem finds_iff : m.Finds p domain c ap ↔
    ∃ target snapshot, ap.queryTarget? = some target ∧ m.cache.get? target.key = some snapshot ∧
      m.registry.Gives m.matchers p.now snapshot.elements ap.roamingConsortium domain c := by
  unfold Finds matchOne
  cases htarget : ap.queryTarget? with
  | none => simp
  | some target =>
    cases hcache : m.cache.get? target.key with
    | none => simp [hcache]
    | some snapshot => simp [hcache, Registry.gives_iff]

theorem pairwise_matchOne (hr : m.registry.Keyed) (p : Platform) (ap : AccessPoint) :
    (m.matchOne p ap).1.Pairwise fun f f' => f.profile.fqdn ≠ f'.profile.fqdn := by
  unfold matchOne
  cases ap.queryTarget? with
  | none => exact .nil
  | some target =>
    dsimp only
    cases m.cache.get? target.key with
    | none => exact .nil
    | some snapshot => exact hr.pairwise_applicable

theorem group_groupMatches {found : List ProfileMatch} (start : MatchGroups × Manager)
    (hfound : found.Pairwise fun f f' => f.profile.fqdn ≠ f'.profile.fqdn) :
    (groupMatches p ap found start).1.group domain c =
      start.1.group domain c ++
        if ∃ f ∈ found, f.profile.fqdn = domain ∧ f.networkClass = c then [ap] else [] := by
  induction found generalizing start with
  | nil => simp [groupMatches]
  | cons f rest ih =>
    obtain ⟨hfirst, hrest⟩ := List.pairwise_cons.1 hfound
    have hstep : groupMatches p ap (f :: rest) start = groupMatches p ap rest
        (start.1.add f.profile.fqdn f.networkClass ap,
          if f.networkClass = .home then start.2.refreshCarrier p f.profile.fqdn else start.2) := rfl
    rw [hstep, ih _ hrest, MatchGroups.group_add]
    by_cases hf : domain = f.profile.fqdn ∧ c = f.networkClass
    · obtain ⟨rfl, rfl⟩ := hf
      have hnone : ¬ ∃ f' ∈ rest, f'.profile.fqdn = f.profile.fqdn ∧
          f'.networkClass = f.networkClass := by
        rintro ⟨f', hf', hfqdn, -⟩
        exact hfirst f' hf' hfqdn.symm
      rw [if_pos ⟨rfl, rfl⟩, if_neg hnone, if_pos ⟨f, List.mem_cons_self, rfl, rfl⟩,
        List.append_nil]
    · have hiff : (∃ f' ∈ f :: rest, f'.profile.fqdn = domain ∧ f'.networkClass = c) ↔
          ∃ f' ∈ rest, f'.profile.fqdn = domain ∧ f'.networkClass = c := by
        constructor
        · rintro ⟨f', hf', hf''⟩
          rcases List.mem_cons.1 hf' with rfl | hrest'
          · exact absurd ⟨hf''.1.symm, hf''.2.symm⟩ hf
          · exact ⟨f', hrest', hf''⟩
        · rintro ⟨f', hf', hf''⟩
          exact ⟨f', List.mem_cons_of_mem _ hf', hf''⟩
      simp only [if_neg hf, hiff]

/-! ### A scan -/

/-- `m'` is `m` in the course of a scan: it finds what `m` finds. -/
structure Scanning (m m' : Manager) : Prop where
  matchers : m'.matchers = m.matchers
  cache : m'.cache = m.cache
  keyed : m'.registry.Keyed
  registry : m'.registry.SameButCarriers m.registry

namespace Scanning

theorem refl (hr : m.registry.Keyed) : m.Scanning m := ⟨rfl, rfl, hr, fun _ => rfl⟩

theorem quiet {m₁ : Manager} (h : m.Scanning m') (hq : Quiet m' m₁)
    (hmatchers : m₁.matchers = m'.matchers) (hcache : m₁.cache = m'.cache) : m.Scanning m₁ where
  matchers := hmatchers.trans h.matchers
  cache := hcache.trans h.cache
  keyed := hq.registry ▸ h.keyed
  registry := hq.registry ▸ h.registry

theorem matchOne (h : m.Scanning m') (p : Platform) (ap : AccessPoint) :
    m.Scanning (m'.matchOne p ap).2 := by
  refine h.quiet (.matchOne m' p ap) ?_ ?_
  all_goals
    unfold Manager.matchOne
    split
    · rfl
    · split
      · rfl
      · unfold requestFetch
        split
        · dsimp only
          split <;> rfl
        · rfl

theorem refreshCarrier (h : m.Scanning m') (p : Platform) (fqdn : String) :
    m.Scanning (m'.refreshCarrier p fqdn) := by
  have hparts : (m'.refreshCarrier p fqdn).matchers = m'.matchers ∧
      (m'.refreshCarrier p fqdn).cache = m'.cache := by
    rcases m'.refreshCarrier_cases p fqdn with he | ⟨imsi, answer, he⟩ | ⟨imsi, carrierId, he⟩ <;>
      rw [he] <;> exact ⟨rfl, rfl⟩
  refine ⟨hparts.1.trans h.matchers, hparts.2.trans h.cache, ?_, ?_⟩
  · exact h.keyed.upkeep (m'.refreshCarrier_stays p fqdn).toUpkeep
  · rw [refreshCarrier_registry]
    exact fun fqdn' => (Registry.sameButCarriers_modify _ _ _ fqdn').trans (h.registry fqdn')

theorem finds_iff (h : m.Scanning m') (hm : m.matchers.IgnoreCarriers) :
    m'.Finds p domain c ap ↔ m.Finds p domain c ap := by
  rw [Manager.finds_iff, Manager.finds_iff, h.matchers, h.cache]
  constructor
  · rintro ⟨target, snapshot, htarget, hcache, hgives⟩
    exact ⟨target, snapshot, htarget, hcache, h.registry.gives hm hgives⟩
  · rintro ⟨target, snapshot, htarget, hcache, hgives⟩
    exact ⟨target, snapshot, htarget, hcache, h.registry.symm.gives hm hgives⟩

theorem groupMatches {start : MatchGroups × Manager} (h : m.Scanning start.2)
    (found : List ProfileMatch) : m.Scanning (Manager.groupMatches p ap found start).2 := by
  refine List.foldlRecOn (motive := fun (s : MatchGroups × Manager) => m.Scanning s.2) found _ h ?_
  intro s hs f _
  dsimp only
  split
  · exact hs.refreshCarrier p _
  · exact hs

end Scanning

/-- **A group is the part of the scan that finds it**, in the order of the scan.  This holds for
    matchers that do not look at carriers. -/
theorem group_matchAll (hm : m.matchers.IgnoreCarriers) (hr : m.registry.Keyed) (p : Platform)
    (aps : List AccessPoint) (domain : String) (c : NetworkClass) :
    (m.matchAll p aps).1.group domain c = aps.filter fun ap => m.Finds p domain c ap := by
  have hscan : ∀ (aps : List AccessPoint) (start : MatchGroups × Manager), m.Scanning start.2 →
      (aps.foldl (fun (s : MatchGroups × Manager) ap =>
        groupMatches p ap (s.2.matchOne p ap).1 (s.1, (s.2.matchOne p ap).2)) start).1.group
          domain c = start.1.group domain c ++ aps.filter fun ap => m.Finds p domain c ap := by
    -- the scan refreshes carriers as it goes; `Scanning` says that this changes no finding
    intro aps
    induction aps with
    | nil => simp
    | cons ap rest ih =>
      intro start hstart
      have hfinds : (∃ f ∈ (start.2.matchOne p ap).1, f.profile.fqdn = domain ∧
          f.networkClass = c) ↔ m.Finds p domain c ap := hstart.finds_iff hm
      rw [List.foldl_cons, ih _ ((hstart.matchOne p ap).groupMatches _),
        group_groupMatches _ (pairwise_matchOne hstart.keyed p ap), List.append_assoc,
        List.filter_cons]
      by_cases hap : m.Finds p domain c ap
      · rw [if_pos (hfinds.2 hap), if_pos (decide_eq_true hap), List.singleton_append]
      · rw [if_neg (mt hfinds.1 hap), if_neg (by simpa using hap), List.nil_append]
  exact hscan aps (.empty, m) (.refl hr)

theorem full_matchAll (m : Manager) (p : Platform) (aps : List AccessPoint) :
    (m.matchAll p aps).1.Full := by
  refine List.foldlRecOn (motive := fun (s : MatchGroups × Manager) => s.1.Full) aps _
    (fun _ _ h => nomatch h) ?_
  intro s hs ap _
  refine List.foldlRecOn (motive := fun (s : MatchGroups × Manager) => s.1.Full) _ _ hs ?_
  intro s' hs' f _
  exact hs'.add _ _ ap

end Manager

end Hotspot
