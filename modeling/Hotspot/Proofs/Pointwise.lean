/-
  Hotspot/Proofs/Pointwise.lean
  =============================
  **Matching a scan is matching its access points.**

  A scan asks access points for metadata and rewrites carriers as it goes, but what it comes out
  with depends on none of this: `Scanning` relates the state in the course of a scan to the state
  at its start, and a scan that sets out from a state in the course of another comes to the same
  groups (`matchAll_congr`).  So the groups of a scan are those of its access points matched
  alone, and of two scans in a row each has the groups it would have had without the other.

  An access point is at home with some profile or roams with some, never both
  (`Finds.not_roaming`).
-/
import Hotspot.Proofs.Readding
import Hotspot.Proofs.Scans

namespace Hotspot

theorem Registry.Gives.not_roaming {r : Registry} {matchers : Matchers} {now : UInt64}
    {es : Anqp.Elements} {rc : Option RoamingConsortium} {domain domain' : String}
    (h : r.Gives matchers now es rc domain .home) :
    ¬ r.Gives matchers now es rc domain' .roaming := by
  rintro ⟨-, -, -, -, hfirst⟩
  obtain ⟨q, hq, -, hputs, -⟩ := h
  rcases hfirst with hclass | hnone
  · cases hclass
  · exact hnone q hq hputs

namespace Manager

variable {m m' : Manager} {p p' : Platform} {ap : AccessPoint} {domain domain' : String}
  {c : NetworkClass}

/-- Only the time of the platform has a say in what is found. -/
theorem finds_congr (h : p'.now = p.now) :
    m.Finds p' domain c ap ↔ m.Finds p domain c ap := by
  rw [finds_iff, finds_iff, h]

/-- **Home hides roaming**, under every domain. -/
theorem Finds.not_roaming (h : m.Finds p domain .home ap) :
    ¬ m.Finds p domain' .roaming ap := by
  rw [finds_iff] at h ⊢
  obtain ⟨target, snapshot, htarget, hcached, hhome⟩ := h
  rintro ⟨target', snapshot', htarget', hcached', hroaming⟩
  obtain rfl := Option.some.inj (htarget.symm.trans htarget')
  obtain rfl := Option.some.inj (hcached.symm.trans hcached')
  exact hhome.not_roaming hroaming

theorem Scanning.matchAll (h : m.Scanning m') (p : Platform) (aps : List AccessPoint) :
    m.Scanning (m'.matchAll p aps).2 := by
  apply List.foldlRecOn (motive := fun (s : MatchGroups × Manager) => m.Scanning s.2) aps _ h
  intro s hs ap _
  exact (hs.matchOne p ap).groupMatches _

/-- **The groups of a scan** are full groups, and their members say which. -/
theorem matchAll_eq_iff (hm : m.matchers.IgnoreCarriers) (hr : m.registry.Keyed) (p : Platform)
    (aps : List AccessPoint) (g : MatchGroups) :
    g = (m.matchAll p aps).1 ↔
      g.Full ∧ ∀ domain c, g.group domain c = aps.filter fun ap => m.Finds p domain c ap := by
  constructor
  · rintro rfl
    exact ⟨full_matchAll m p aps, group_matchAll hm hr p aps⟩
  · rintro ⟨hfull, hgroup⟩
    apply hfull.ext (full_matchAll m p aps)
    intro domain c
    rw [hgroup, group_matchAll hm hr]

/-- A scan in the course of another comes to the groups that it has from the start. -/
theorem matchAll_congr (hm : m.matchers.IgnoreCarriers) (hr : m.registry.Keyed)
    (h : m.Scanning m') (hnow : p'.now = p.now) (aps : List AccessPoint) :
    (m'.matchAll p' aps).1 = (m.matchAll p aps).1 := by
  have hm' : m'.matchers.IgnoreCarriers := h.matchers ▸ hm
  rw [matchAll_eq_iff hm hr]
  refine ⟨full_matchAll m' p' aps, fun domain c => ?_⟩
  rw [group_matchAll hm' h.keyed]
  apply List.filter_congr
  intro ap _
  rw [decide_eq_decide, h.finds_iff hm, finds_congr hnow]

/-- **A scan is matched point by point.**  With matchers that do not look at carriers, the groups
    of a scan are the ones, without an empty group, in which the access points under a domain and
    a class are those that matching them alone in the state at the start finds there, in the
    order of the scan and as often as they are in it.  None of them is at home in one group and
    roams in another.  So the groups of two scans in a row are, one by one, those of the first
    and then those of the second, whether the second is taken from the start or after the first,
    and whatever the platform answered meanwhile.

    That profiles stand under their own domains is so in every state that a run leads to. -/
theorem scan_is_pointwise (hm : m.matchers.IgnoreCarriers) (hr : m.registry.Keyed)
    (p : Platform) :
    (∀ aps g, g = (m.matchAll p aps).1 ↔
      g.Full ∧ ∀ domain c, g.group domain c = aps.filter fun ap =>
        ∃ f ∈ (m.matchOne p ap).1, f.profile.fqdn = domain ∧ f.networkClass = c) ∧
    (∀ aps ap domain domain', ap ∈ (m.matchAll p aps).1.group domain .home →
      ap ∉ (m.matchAll p aps).1.group domain' .roaming) ∧
    (∀ xs ys domain c, (m.matchAll p (xs ++ ys)).1.group domain c =
      (m.matchAll p xs).1.group domain c ++ (m.matchAll p ys).1.group domain c) ∧
    (∀ p' p'' xs ys, p'.now = p.now → p''.now = p.now →
      (m.matchAll p' xs).1 = (m.matchAll p xs).1 ∧
      ((m.matchAll p' xs).2.matchAll p'' ys).1 = (m.matchAll p ys).1) ∧
    ∀ reached : Manager, reached.Reachable → reached.registry.Keyed := by
  refine ⟨matchAll_eq_iff hm hr p, fun aps ap domain domain' hhome hroaming => ?_,
    fun xs ys domain c => ?_, fun p' p'' xs ys hp' hp'' => ⟨?_, ?_⟩,
    fun reached hreached => keyed_of_reachable hreached⟩
  · rw [group_matchAll hm hr, List.mem_filter, decide_eq_true_eq] at hhome hroaming
    exact hhome.2.not_roaming hroaming.2
  · rw [group_matchAll hm hr, group_matchAll hm hr, group_matchAll hm hr, List.filter_append]
  · exact matchAll_congr hm hr (.refl hr) hp' xs
  · exact matchAll_congr hm hr ((Scanning.refl hr).matchAll p' xs) hp'' ys

def twoAnswered : List Step :=
  [(.obliging, .add (some wholeSim) ⟨10, "shop"⟩ false),
    (.obliging, .add (some (.ofSim "b.example")) ⟨10, "shop"⟩ false),
    (.obliging, .matchAll [.ofNames "cafe" "02:00:00:00:00:01",
      .ofNames "bar" "02:00:00:00:00:02"]),
    (.obliging, .fetchResult ⟨0x020000000001⟩ (.ofList [.domainName ["a.example"]])),
    (.obliging, .fetchResult ⟨0x020000000002⟩ (.ofList [.naiRealm ["realm"]]))]

/-- The cafe is in the scan twice, before and after a stranger that is asked; meanwhile the carrier
    of the profile at home becomes known. -/
theorem scan_is_pointwise_carrier_known :
    let m := (new .default .default).run twoAnswered
    let p := Platform.naming fun _ => some 7
    let cafe := AccessPoint.ofNames "cafe" "02:00:00:00:00:01"
    let bar := AccessPoint.ofNames "bar" "02:00:00:00:00:02"
    let stranger := AccessPoint.ofNames "inn" "02:00:00:00:00:03"
    let scan := m.matchAll p [cafe, stranger, cafe, bar]
    scan.2.registry ≠ m.registry ∧ scan.2.requests ≠ m.requests ∧
      scan.1.group "a.example" .home = [cafe, cafe] ∧
      scan.1.group "b.example" .roaming = [bar] ∧ bar ∉ scan.1.group "a.example" .home ∧
      (scan.2.matchAll p [cafe]).1.group "a.example" .home = [cafe] := by
  intro m p cafe bar stranger scan
  have hkeyed : m.registry.Keyed := keyed_of_reachable ⟨_, _, _, rfl⟩
  obtain ⟨hgroups, hclass, -, hagain, -⟩ :=
    scan_is_pointwise (m := m) Matchers.default_ignoreCarriers hkeyed p
  have hgroup := ((hgroups [cafe, stranger, cafe, bar] _).1 rfl).2
  have hroams : scan.1.group "a.example" .roaming = [bar] := by
    rw [hgroup]
    decide
  refine ⟨by decide, by decide, ?_, ?_, ?_, ?_⟩
  · rw [hgroup]
    decide
  · rw [hgroup]
    decide
  · intro hhome
    apply hclass _ _ _ "a.example" hhome
    rw [hroams]
    exact List.mem_singleton_self bar
  · rw [(hagain p p [cafe, stranger, cafe, bar] [cafe] rfl rfl).2,
      ((hgroups [cafe] _).1 rfl).2]
    decide

end Manager

end Hotspot
