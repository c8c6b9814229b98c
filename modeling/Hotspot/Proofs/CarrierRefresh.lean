/-
  Hotspot/Proofs/CarrierRefresh.lean
  ==================================
  **When profiles get a carrier, and what it costs.**

  While the platform does not change its mind, to ask for a carrier a second time changes nothing
  (`Profile.recarried_recarried`).  So it does not matter how often a profile is found in a scan:
  `Recarrying` says what is so after any number of home matches.  Each profile that was matched has
  the carrier of its subscriber number, each one that changed was stored once, namely at its first
  match, and each match asked for one number if the profile has a whole one.
-/
import Hotspot.Proofs.Pointwise
import Hotspot.Proofs.SubscriberNumbers

namespace Hotspot

/-- The carrier of a configuration: the one that is named for its subscriber number, or else its
    own. -/
def ProfileConfig.carrierBy (config : ProfileConfig) (carriers : String → Option Int32) :
    Option Int32 :=
  ((config.sim.bind (·.fullImsi?)).bind carriers).or config.carrierId

namespace Profile

variable (q : Profile) (carriers : String → Option Int32)

theorem recarried_eq : q.recarried carriers =
    { q with config := { q.config with carrierId := q.config.carrierBy carriers } } := by
  have hnumber : q.config.sim.bind (·.fullImsi?) = q.imsi? := rfl
  rw [recarried, ProfileConfig.carrierBy, hnumber]
  cases q.imsi?.bind carriers with
  | none => rfl
  | some carrierId => rfl

theorem imsi?_recarried : (q.recarried carriers).imsi? = q.imsi? := by
  unfold recarried
  split <;> rfl

/-- A carrier that was asked for is not changed by asking again. -/
theorem recarried_recarried : (q.recarried carriers).recarried carriers = q.recarried carriers := by
  rw [recarried, imsi?_recarried]
  unfold recarried
  cases q.imsi?.bind carriers <;> rfl

end Profile

namespace Manager

variable {m m' : Manager} {p : Platform} {carriers : String → Option Int32} {homes : List String}

/-! ### One question -/

/-- Asking for a carrier stores the registry just if it changes the profile. -/
theorem refreshCarrier_stores (m : Manager) (p : Platform) (fqdn : String) :
    ∃ stored, Shows Call.stored? m (m.refreshCarrier p fqdn) stored ∧
      stored.length =
        if (m.refreshCarrier p fqdn).registry.get? fqdn = m.registry.get? fqdn then 0 else 1 := by
  have hidle : Shows Call.stored? m m [] := .idle rfl
  unfold refreshCarrier updateCarrier
  cases hget : m.registry.get? fqdn with
  | none => exact ⟨[], hidle, by simp [hget]⟩
  | some q =>
    cases himsi : q.config.sim.bind (·.fullImsi?) with
    | none => exact ⟨[], by simpa only [himsi] using hidle, by simp [himsi, hget]⟩
    | some imsi =>
      simp only [himsi, resolve]
      cases hanswer : p.resolve m.history imsi with
      | none =>
        exact ⟨[], hidle.silent (c := .resolve imsi none) rfl, by simp [hget]⟩
      | some carrierId =>
        have hasked := hidle.silent (c := .resolve imsi (some carrierId)) rfl
        by_cases hsame : q.config.carrierId = some carrierId
        · simp only [if_pos hsame]
          exact ⟨[], hasked, by simp [hget]⟩
        · simp only [if_neg hsame]
          have hcarried : Shows Call.stored? m { m.record (.resolve imsi (some carrierId)) with
              registry := m.registry.modify fqdn (·.withCarrier carrierId) } [] := hasked.congr rfl
          have hother : q.withCarrier carrierId ≠ q := fun heq =>
            hsame (congrArg (·.config.carrierId) heq).symm
          refine ⟨_, hcarried.record rfl, ?_⟩
          simp [Registry.get?_modify, hget, hother]

/-! ### Stored once for each change -/

/-- From `m` to `m'` the registry was stored once for each profile that changed. -/
def StoresChanges (m m' : Manager) : Prop :=
  ∃ (changed : List String) (stored : List PersistedState), changed.Nodup ∧
    (∀ domain, domain ∈ changed ↔ m'.registry.get? domain ≠ m.registry.get? domain) ∧
    Shows Call.stored? m m' stored ∧ stored.length = changed.length

/-- A profile that is changed for the first time is stored once more. -/
theorem StoresChanges.next {m₁ : Manager} {fqdn : String} {stored : List PersistedState}
    (h : m.StoresChanges m') (hstored : Shows Call.stored? m' m₁ stored)
    (hlength : stored.length =
      if m₁.registry.get? fqdn = m'.registry.get? fqdn then 0 else 1)
    (hothers : ∀ domain, domain ≠ fqdn → m₁.registry.get? domain = m'.registry.get? domain)
    (hfirst : m₁.registry.get? fqdn ≠ m'.registry.get? fqdn →
      m'.registry.get? fqdn = m.registry.get? fqdn) : m.StoresChanges m₁ := by
  obtain ⟨changed, before, hnodup, hchanged, hbefore, hcount⟩ := h
  by_cases hsame : m₁.registry.get? fqdn = m'.registry.get? fqdn
  · rw [if_pos hsame] at hlength
    refine ⟨changed, _, hnodup, fun domain => ?_, hbefore.trans hstored, ?_⟩
    · rw [hchanged]
      by_cases hdomain : domain = fqdn
      · rw [hdomain, hsame]
      · rw [hothers domain hdomain]
    · rw [List.length_append, hlength, hcount, Nat.add_zero]
  · rw [if_neg hsame] at hlength
    have hunchanged := hfirst hsame
    refine ⟨fqdn :: changed, _, List.nodup_cons.2 ⟨?_, hnodup⟩, fun domain => ?_,
      hbefore.trans hstored, ?_⟩
    · rw [hchanged]
      exact fun hne => hne hunchanged
    · rw [List.mem_cons, hchanged]
      by_cases hdomain : domain = fqdn
      · subst hdomain
        exact iff_of_true (Or.inl rfl) (hunchanged ▸ hsame)
      · rw [or_iff_right hdomain, hothers domain hdomain]
    · rw [List.length_append, hlength, hcount, List.length_cons]

/-! ### A scan -/

/-- `m'` is `m` after home matches of these domains, one question for each. -/
structure Recarrying (m : Manager) (carriers : String → Option Int32) (homes : List String)
    (m' : Manager) : Prop where
  registry : ∀ domain, m'.registry.get? domain =
    if domain ∈ homes then (m.registry.get? domain).map (·.recarried carriers)
    else m.registry.get? domain
  nextIndex : m'.registry.nextIndex = m.registry.nextIndex
  asked : Shows Call.resolved? m m' (homes.filterMap fun domain =>
    (m.registry.get? domain).bind (·.imsi?))
  stored : m.StoresChanges m'

namespace Recarrying

theorem refl (m : Manager) (carriers : String → Option Int32) : m.Recarrying carriers [] m where
  registry domain := by simp
  nextIndex := rfl
  asked := .idle rfl
  stored := ⟨[], [], .nil, by simp, .idle rfl, rfl⟩

theorem matchOne (h : m.Recarrying carriers homes m') (p : Platform) (ap : AccessPoint) :
    m.Recarrying carriers homes (m'.matchOne p ap).2 := by
  have hquiet := Quiet.matchOne m' p ap
  refine ⟨hquiet.registry ▸ h.registry, hquiet.registry ▸ h.nextIndex, h.asked.matchOne ap, ?_⟩
  obtain ⟨calls, hcalls, hquietly⟩ := hquiet.history
  have hstored : Shows Call.stored? m' (m'.matchOne p ap).2 [] := by
    refine Shows.silentCalls calls (.idle rfl) hcalls fun c hc => ?_
    have hplain := hquietly c hc
    cases c <;> first | rfl | cases hplain
  obtain ⟨changed, stored, hnodup, hchanged, hbefore, hlength⟩ := h.stored
  refine ⟨changed, _, hnodup, hquiet.registry ▸ hchanged, hbefore.trans hstored, ?_⟩
  rw [List.append_nil, hlength]

/-- **One more home match.** -/
theorem refreshCarrier (h : m.Recarrying carriers homes m') (hp : ∀ h, p.resolve h = carriers)
    (fqdn : String) :
    m.Recarrying carriers (homes ++ [fqdn]) (m'.refreshCarrier p fqdn) := by
  have hregistry := m'.refreshCarrier_registry p fqdn
  rw [hp] at hregistry
  -- the profile is the one it was, or has its carrier already
  have hself : (m'.registry.get? fqdn).map (·.recarried carriers) =
      (m.registry.get? fqdn).map (·.recarried carriers) := by
    rw [h.registry]
    split
    · rw [Option.map_map]
      congr 1
      funext q
      exact q.recarried_recarried carriers
    · rfl
  have himsi : (m'.registry.get? fqdn).bind (·.imsi?) =
      (m.registry.get? fqdn).bind (·.imsi?) := by
    have hbind := congrArg (·.bind Profile.imsi?) hself
    simpa only [Option.bind_map, Function.comp_def, Profile.imsi?_recarried] using hbind
  have hget (domain : String) : (m'.refreshCarrier p fqdn).registry.get? domain =
      if domain = fqdn then (m.registry.get? fqdn).map (·.recarried carriers)
      else m'.registry.get? domain := by
    rw [hregistry, Registry.get?_modify]
    split
    · rename_i hdomain
      rw [hdomain, hself]
    · rfl
  refine ⟨?_, ?_, ?_, ?_⟩
  · intro domain
    rw [hget, h.registry]
    by_cases hdomain : domain = fqdn
    · rw [if_pos hdomain, if_pos (by simp [hdomain]), hdomain]
    · simp [hdomain]
  · rw [hregistry]
    exact h.nextIndex
  · have hasked := h.asked.refreshCarrier (p := p) fqdn
    rw [himsi] at hasked
    rw [List.filterMap_append, List.filterMap_cons]
    cases hnumber : (m.registry.get? fqdn).bind (·.imsi?) <;> simpa [hnumber] using hasked
  · obtain ⟨stored, hstored, hlength⟩ := m'.refreshCarrier_stores p fqdn
    refine h.stored.next hstored hlength (fun domain hdomain => ?_) fun hchanges => ?_
    · rw [hget, if_neg hdomain]
    · -- a profile that was matched before has its carrier already
      have hnew : fqdn ∉ homes := by
        intro hmem
        rw [hget, if_pos rfl, h.registry, if_pos hmem] at hchanges
        exact hchanges rfl
      rw [h.registry, if_neg hnew]

end Recarrying

/-- **What matching a scan does about carriers**, told by the groups that it makes. -/
structure ScanRefreshes (m : Manager) (carriers : String → Option Int32) (groups : MatchGroups)
    (m' : Manager) : Prop where
  /-- A profile that is home to an access point has the carrier of its subscriber number. -/
  home : ∀ domain, groups.group domain .home ≠ [] →
    m'.registry.get? domain = (m.registry.get? domain).map fun q =>
      { q with config := { q.config with carrierId := q.config.carrierBy carriers } }
  /-- All other profiles are as they were. -/
  other : ∀ domain, groups.group domain .home = [] →
    m'.registry.get? domain = m.registry.get? domain
  nextIndex : m'.registry.nextIndex = m.registry.nextIndex
  stored : m.StoresChanges m'
  /-- Each home match of a profile with a whole number is a question, and nothing else is. -/
  asked : ∃ homes : List String,
    (∀ domain, homes.count domain = (groups.group domain .home).length) ∧
    Shows Call.resolved? m m' (homes.filterMap fun domain =>
      (m.registry.get? domain).bind (·.imsi?))

/-- The domains of the home matches are those of the home groups, as often as these have members. -/
theorem recarrying_matchAll (hp : ∀ h, p.resolve h = carriers) (aps : List AccessPoint) :
    ∃ homes : List String, m.Recarrying carriers homes (m.matchAll p aps).2 ∧
      ∀ domain, homes.count domain = ((m.matchAll p aps).1.group domain .home).length := by
  let Counts (s : MatchGroups × Manager) : Prop :=
    ∃ homes : List String, m.Recarrying carriers homes s.2 ∧
      ∀ domain, homes.count domain = (s.1.group domain .home).length
  unfold matchAll
  refine List.foldlRecOn (motive := Counts) aps _ ⟨[], .refl m carriers, fun _ => rfl⟩ ?_
  rintro s ⟨homes, hs, hcount⟩ ap -
  unfold groupMatches
  refine List.foldlRecOn (motive := Counts) _ _ ⟨homes, hs.matchOne p ap, hcount⟩ ?_
  rintro s' ⟨homes', hs', hcount'⟩ f -
  dsimp only
  by_cases hhome : f.networkClass = .home
  · rw [if_pos hhome]
    refine ⟨homes' ++ [f.profile.fqdn], hs'.refreshCarrier hp _, fun domain => ?_⟩
    rw [MatchGroups.group_add, hhome, List.count_append, hcount']
    by_cases hdomain : domain = f.profile.fqdn
    · rw [if_pos ⟨hdomain, rfl⟩, hdomain, List.length_append, List.count_singleton_self,
        List.length_singleton]
    · rw [if_neg fun h => hdomain h.1, List.count_singleton, if_neg]
      · rfl
      · simpa using fun h => hdomain h.symm
  · rw [if_neg hhome]
    refine ⟨homes', hs', fun domain => ?_⟩
    rw [MatchGroups.group_add, if_neg fun h => hhome h.2.symm, hcount']

theorem scanRefreshes_matchAll (hp : ∀ h, p.resolve h = carriers) (aps : List AccessPoint) :
    m.ScanRefreshes carriers (m.matchAll p aps).1 (m.matchAll p aps).2 := by
  obtain ⟨homes, hscan, hcount⟩ := recarrying_matchAll (m := m) hp aps
  have hmem (domain : String) :
      domain ∈ homes ↔ (m.matchAll p aps).1.group domain .home ≠ [] := by
    rw [← List.count_pos_iff, hcount, List.length_pos_iff]
  refine ⟨fun domain hhome => ?_, fun domain hother => ?_, hscan.nextIndex, hscan.stored, homes,
    hcount, hscan.asked⟩
  · rw [hscan.registry, if_pos ((hmem domain).2 hhome)]
    exact congrArg (Option.map · _) (funext fun q => q.recarried_eq carriers)
  · rw [hscan.registry, if_neg fun h => (hmem domain).1 h hother]

/-! ### Installing and importing -/

/-- The profile that an accepted request is for has the carrier of its subscriber number. -/
theorem carrierBy_of_add (hp : ∀ h, p.resolve h = carriers) {config : ProfileConfig}
    {caller : AppIdentity} {isSuggestion : Bool}
    (hadd : (m.add p (some config) caller isSuggestion).1 = .ok ()) :
    ∃ q, (m.add p (some config) caller isSuggestion).2.registry.get? config.fqdn = some q ∧
      q.index = m.registry.nextIndex ∧
      q.config = { config with carrierId := config.carrierBy carriers } := by
  let r : InstallRequest := { config? := some config, caller, isSuggestion }
  obtain ⟨e, asked, he, hget, -⟩ :=
    entered_of_accepted (r := r) (failure_eq_none_of_add_eq_ok m p r hadd)
  obtain rfl : config = e.config := Option.some.inj (InstallRequest.of_profile? he).1
  have hindex : e.index = m.registry.nextIndex := index_of_profile? he
  rw [hp, Profile.recarried_eq] at hget
  exact ⟨_, hget, hindex, rfl⟩

theorem carrierBy_of_importLegacy (hp : ∀ h, p.resolve h = carriers) {entry : Legacy.Entry}
    (himport : (m.importLegacy p entry).1 = .ok ()) :
    ∃ config type q, entry.toProfileConfig = .ok (config, type) ∧
      (m.importLegacy p entry).2.registry.get? config.fqdn = some q ∧
      q.index = m.registry.nextIndex ∧
      q.config = { config with carrierId := config.carrierBy carriers } := by
  rw [importLegacy_eq] at himport ⊢
  cases hentry : entry.toProfileConfig with
  | error reason =>
    rw [hentry] at himport
    cases himport
  | ok converted =>
    obtain ⟨config, type⟩ := converted
    let e := Profile.new config m.registry.nextIndex entry.creator .saved type
    obtain ⟨asked, hget⟩ := get?_enter_self { m.increment .installAttempted with
      registry := m.registry.takeIndex } p e (e.owner.package ≠ "")
    rw [hp, Profile.recarried_eq] at hget
    exact ⟨config, type, _, rfl, hget, rfl, rfl⟩

/-- **Carriers are refreshed where a profile is new or at home, and nowhere else.**  While the
    platform names the same carriers, a profile that was installed or imported has the carrier of
    its subscriber number, and so have the profiles that are home to an access point of a scan;
    where no carrier is named the one it had stays.  A scan changes nothing else, stores each
    change once, and asks only for home matches.  No other operation asks, and no operation ever
    asks for a masked number. -/
theorem carriers_are_refreshed (m : Manager) {p : Platform} {carriers : String → Option Int32}
    (hp : ∀ h, p.resolve h = carriers) :
    (∀ config caller isSuggestion, (m.add p (some config) caller isSuggestion).1 = .ok () →
      ∃ q, (m.add p (some config) caller isSuggestion).2.registry.get? config.fqdn = some q ∧
        q.index = m.registry.nextIndex ∧
        q.config = { config with carrierId := config.carrierBy carriers }) ∧
    (∀ entry, (m.importLegacy p entry).1 = .ok () →
      ∃ config type q, entry.toProfileConfig = .ok (config, type) ∧
        (m.importLegacy p entry).2.registry.get? config.fqdn = some q ∧
        q.index = m.registry.nextIndex ∧
        q.config = { config with carrierId := config.carrierBy carriers }) ∧
    (∀ aps, m.ScanRefreshes carriers (m.matchAll p aps).1 (m.matchAll p aps).2) ∧
    (∀ (p' : Platform) (op : Operation), op.mayResolve = false → ∀ imsi answer,
      .resolve imsi answer ∉ callsSince m.history (m.perform p' op).2.history) ∧
    (∀ steps imsi answer, .resolve imsi answer ∈ callsSince m.history (m.run steps).history →
      imsi.toList.getLast? ≠ some '*') := by
  refine ⟨fun _ _ _ hadd => carrierBy_of_add hp hadd,
    fun _ himport => carrierBy_of_importLegacy hp himport, scanRefreshes_matchAll hp, ?_, ?_⟩
  · intro p' op hop imsi answer hcall
    have hnothing := (shows_perform_nothing (m := m) (p := p') hop).callsSince_eq
    have hshown := List.mem_filterMap.2 ⟨_, hcall, (rfl : Call.resolved? _ = some imsi)⟩
    rw [hnothing] at hshown
    cases hshown
  · intro steps imsi answer hcall
    obtain ⟨imsis, hshown, hwhole⟩ := AsksWhole.run m steps
    have hasked := List.mem_filterMap.2 ⟨_, hcall, (rfl : Call.resolved? _ = some imsi)⟩
    rw [hshown.callsSince_eq] at hasked
    exact hwhole imsi hasked

/-- The carrier of a profile at home becomes known in a scan; the partner's network next to it
    leaves the other profile as it was. -/
theorem carriers_are_refreshed_known :
    let m := (new .default .default).run twoAnswered
    let p := Platform.naming fun _ => some 7
    let scan := m.matchAll p [.ofNames "cafe" "02:00:00:00:00:01",
      .ofNames "bar" "02:00:00:00:00:02"]
    (∀ h, p.resolve h = fun _ => some 7) ∧ scan.1.group "a.example" .home ≠ [] ∧
      scan.1.group "b.example" .home = [] ∧
      (m.registry.get? "a.example").map (·.config.carrierId) = some none ∧
      (scan.2.registry.get? "a.example").map (·.config.carrierId) = some (some 7) ∧
      scan.2.registry.get? "b.example" = m.registry.get? "b.example" := by
  intro m p scan
  have hp : ∀ h, p.resolve h = fun _ => some 7 := fun _ => rfl
  obtain ⟨-, -, hscan, -, -⟩ := carriers_are_refreshed m hp
  have hhome : scan.1.group "a.example" .home ≠ [] := by decide
  have hother : scan.1.group "b.example" .home = [] := by decide
  have hbefore : (m.registry.get? "a.example").map (·.config.carrierId) = some none := by decide
  refine ⟨hp, hhome, hother, hbefore, ?_, (hscan _).other _ hother⟩
  rw [(hscan _).home _ hhome]
  decide

end Manager

end Hotspot
