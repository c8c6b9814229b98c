/-
  Hotspot/Proofs/Precedence.lean
  ==============================
  **Which profiles apply to an access point, and in which order.**

  The profiles are gone through once, by home domain, and each is put in the class its matcher
  names unless its subscription has ended.  Class by class this is a filter of the installed
  profiles (`filter_found`), so what applies is the home class as a whole, or the roaming class
  as a whole when nobody is at home (`applicable_eq`): a subscription that has ended neither
  applies nor keeps a roaming one out.

  Only an access point that can be asked and was not answered yet brings a call, and the call
  goes to its own radio (`match_precedence`).
-/
import Hotspot.Proofs.Completions
import Hotspot.Proofs.Exchanges
import Hotspot.Proofs.Scans

namespace Hotspot

section Classes

variable (matchers : Matchers) (now : UInt64) (es : Anqp.Elements) (rc : Option RoamingConsortium)

/-- Whether a profile is in a class: its subscription has no end or ends later, and its matcher
    names the class. -/
def Profile.isIn (c : NetworkClass) (q : Profile) : Bool :=
  q.config.expiration.all (now < ·) && matchers q.credentialType q es rc == c.verdict

def Registry.inClass (r : Registry) (c : NetworkClass) : List Profile :=
  r.profiles.values.filter (Profile.isIn matchers now es rc c)

variable {matchers now es rc}

theorem Profile.isIn_iff {q : Profile} {c : NetworkClass} :
    q.isIn matchers now es rc c = true ↔ q.Puts matchers now es rc c := by
  rw [isIn, Puts, Bool.and_eq_true, beq_iff_eq]
  refine and_congr_left fun _ => ?_
  unfold isExpired
  cases q.config.expiration with
  | none => simp
  | some expiration => simp

theorem Profile.filter_match? (q : Profile) (c : NetworkClass) :
    (q.match? matchers now es rc).filter (fun f => f.networkClass = c) =
      if q.isIn matchers now es rc c then some ⟨q, c⟩ else none := by
  apply Option.ext
  intro f
  rw [Option.filter_eq_some_iff, match?_eq_some_iff, decide_eq_true_eq,
    Option.ite_none_right_eq_some, isIn_iff, Option.some.injEq]
  constructor
  · rintro ⟨⟨rfl, hputs⟩, rfl⟩
    exact ⟨hputs, rfl⟩
  · rintro ⟨hputs, rfl⟩
    exact ⟨⟨rfl, hputs⟩, rfl⟩

/-- What is found in a class is the class. -/
theorem filter_found (profiles : List Profile) (c : NetworkClass) :
    (profiles.filterMap (Profile.match? matchers now es rc)).filter (fun f => f.networkClass = c) =
      (profiles.filter (Profile.isIn matchers now es rc c)).map fun q => ⟨q, c⟩ := by
  rw [List.filter_filterMap, ← List.filterMap_eq_map, List.filterMap_filter]
  exact congrArg (List.filterMap · profiles) (funext fun q => q.filter_match? c)

/-- **What applies is one class as a whole**: home, or roaming when nobody is at home. -/
theorem Registry.applicable_eq (r : Registry) :
    r.applicable matchers now es rc =
      if r.inClass matchers now es rc .home = [] then
        (r.inClass matchers now es rc .roaming).map fun q => ⟨q, .roaming⟩
      else (r.inClass matchers now es rc .home).map fun q => ⟨q, .home⟩ := by
  unfold applicable preferHome
  dsimp only
  rw [filter_found r.profiles.values .home]
  by_cases hnone : r.inClass matchers now es rc .home = []
  · have hroaming : ∀ f ∈ r.profiles.values.filterMap (Profile.match? matchers now es rc),
        decide (f.networkClass = .roaming) = true := by
      intro f hf
      cases hclass : f.networkClass with
      | roaming => rfl
      | home =>
        have hmem : f ∈ (r.profiles.values.filterMap (Profile.match? matchers now es rc)).filter
            fun f => f.networkClass = .home := List.mem_filter.2 ⟨hf, decide_eq_true hclass⟩
        rw [filter_found, ← inClass, hnone] at hmem
        cases hmem
    rw [if_pos hnone, ← inClass, hnone, inClass, ← filter_found, List.filter_eq_self.2 hroaming]
    rfl
  · rw [if_neg hnone, ← inClass, if_neg]
    rwa [List.isEmpty_map, List.isEmpty_iff]

end Classes

/-- Profiles under their own home domains are listed by home domain. -/
theorem Registry.Keyed.increasing {r : Registry} (h : r.Keyed) :
    r.profiles.values.Pairwise fun q q' => compare q.fqdn q'.fqdn = .lt := by
  rw [OrderedMap.values, List.pairwise_map]
  refine r.profiles.increasing.imp_of_mem fun {e e'} he he' hlt => ?_
  rw [h e.1 e.2 (OrderedMap.mem_entries_iff.1 he), h e'.1 e'.2 (OrderedMap.mem_entries_iff.1 he')]
  exact hlt

namespace Manager

variable {m : Manager} {p : Platform} {ap : AccessPoint} {target : QueryTarget}

theorem matchOne_of_cached {snapshot : Snapshot} (htarget : ap.queryTarget? = some target)
    (hcached : m.cache.get? target.key = some snapshot) :
    m.matchOne p ap =
      (m.registry.applicable m.matchers p.now snapshot.elements ap.roamingConsortium, m) := by
  unfold matchOne
  rw [htarget]
  dsimp only
  rw [hcached]

/-- An access point whose metadata is not remembered finds nothing, and only the requests and the
    history can change: there is at most one fetch, from its own radio. -/
theorem matchOne_of_uncached (htarget : ap.queryTarget? = some target)
    (huncached : m.cache.get? target.key = none) :
    (m.matchOne p ap).1 = [] ∧
    (m.matchOne p ap).2 = { m with
      requests := (m.matchOne p ap).2.requests, history := (m.matchOne p ap).2.history } ∧
    ((callsSince m.history (m.matchOne p ap).2.history).filter Call.isFetch = [] ∨
      ∃ first biased accepted, (callsSince m.history (m.matchOne p ap).2.history).filter
        Call.isFetch = [.issueFetch target.bssid first biased accepted]) := by
  have hnothing : (m.matchOne p ap).1 = [] := by
    unfold matchOne
    rw [htarget]
    dsimp only
    rw [huncached]
  refine ⟨hnothing, ?_⟩
  rcases m.matchOne_cases p ap with hsame | ⟨target', first, biased, htarget', -, hrefused | hasked⟩
  · rw [hsame, callsSince_self]
    exact ⟨rfl, .inl rfl⟩
  · obtain rfl := Option.some.inj (htarget.symm.trans htarget')
    rw [hrefused, callsSince_record]
    exact ⟨rfl, .inr ⟨first, biased, false, rfl⟩⟩
  · obtain rfl := Option.some.inj (htarget.symm.trans htarget')
    rw [hasked, callsSince_requested]
    exact ⟨rfl, .inr ⟨first, biased, true, rfl⟩⟩

theorem address?_of_queryTarget? (h : ap.queryTarget? = some target) :
    ap.address? = some target.bssid := by
  unfold AccessPoint.queryTarget? at h
  cases hpasspoint : ap.passpoint with
  | false => simp [hpasspoint] at h
  | true =>
    simp only [hpasspoint, Bool.not_true, Bool.false_eq_true, if_false] at h
    obtain ⟨bssid, hbssid, h⟩ := Option.bind_eq_some_iff.1 h
    obtain ⟨indication, -, h⟩ := Option.bind_eq_some_iff.1 h
    rw [hbssid, ← Option.some.inj h]

theorem increasing_matchOne (hr : m.registry.Keyed) (p : Platform) (ap : AccessPoint) :
    (m.matchOne p ap).1.Pairwise fun f f' => compare f.profile.fqdn f'.profile.fqdn = .lt := by
  cases htarget : ap.queryTarget? with
  | none =>
    rw [matchOne, htarget]
    exact .nil
  | some target =>
    cases hcached : m.cache.get? target.key with
    | none =>
      rw [(matchOne_of_uncached htarget hcached).1]
      exact .nil
    | some snapshot =>
      rw [matchOne_of_cached htarget hcached, Registry.applicable_eq]
      -- either class is a part of the installed profiles, in their order
      split <;> exact List.pairwise_map.2 (hr.increasing.filter _)

/-- **Which profiles apply to an access point.**  With metadata on record these are the profiles
    in the home class, or those in the roaming class when nobody is at home, and nothing is
    called.  Without it there are none, and at most the access point itself is asked.  An access
    point that no metadata can be remembered for is passed over. -/
theorem match_precedence (m : Manager) (p : Platform) (ap : AccessPoint) :
    (∀ target snapshot, ap.queryTarget? = some target →
      m.cache.get? target.key = some snapshot →
      let inClass := m.registry.inClass m.matchers p.now snapshot.elements ap.roamingConsortium
      m.matchOne p ap =
        (if inClass .home = [] then (inClass .roaming).map fun q => ⟨q, .roaming⟩
          else (inClass .home).map fun q => ⟨q, .home⟩, m)) ∧
    (m.registry.Keyed → (m.matchOne p ap).1.Pairwise fun f f' =>
      compare f.profile.fqdn f'.profile.fqdn = .lt) ∧
    (∀ target, ap.queryTarget? = some target → m.cache.get? target.key = none →
      let m' := (m.matchOne p ap).2
      (m.matchOne p ap).1 = [] ∧ m'.registry = m.registry ∧ m'.cache = m.cache ∧
      m' = { m with requests := m'.requests, history := m'.history } ∧
      ((callsSince m.history m'.history).filter Call.isFetch = [] ∨
        ∃ bssid first biased accepted, ap.address? = some bssid ∧
          (callsSince m.history m'.history).filter Call.isFetch =
            [.issueFetch bssid first biased accepted])) ∧
    (ap.queryTarget? = none → m.matchOne p ap = ([], m)) := by
  refine ⟨fun target snapshot htarget hcached => ?_, fun hkeyed => ?_,
    fun target htarget huncached => ?_, fun hnone => ?_⟩
  · rw [matchOne_of_cached htarget hcached, Registry.applicable_eq]
  · exact increasing_matchOne hkeyed p ap
  · obtain ⟨hnothing, hframe, hasked⟩ := matchOne_of_uncached (p := p) htarget huncached
    refine ⟨hnothing, by rw [hframe], by rw [hframe], hframe, hasked.imp_right ?_⟩
    rintro ⟨first, biased, accepted, hfetch⟩
    exact ⟨target.bssid, first, biased, accepted, address?_of_queryTarget? htarget, hfetch⟩
  · unfold matchOne
    rw [hnone]

/-- Two profiles are installed, one of them with an end, and an access point that lists the domain
    of the one and the realm of both is asked and answers. -/
def twoAtCafe : List Step :=
  let ending : ProfileConfig := { ProfileConfig.ofSim "a.example" with expiration := some 10 }
  [(.obliging, .add (some ending) ⟨10, "shop"⟩ false),
    (.obliging, .add (some (.ofSim "b.example")) ⟨10, "shop"⟩ false),
    (.obliging, .matchOne (.ofNames "cafe" "02:00:00:00:00:01")),
    (.obliging, .fetchResult ⟨0x020000000001⟩
      (.ofList [.domainName ["A.example"], .naiRealm ["realm"]]))]

/-- Until its subscription ends the profile at home applies alone, and then the other one. -/
theorem match_precedence_cafe :
    let m := (new .default .default).run twoAtCafe
    let cafe := AccessPoint.ofNames "cafe" "02:00:00:00:00:01"
    let found now := (m.matchOne { Platform.obliging with now } cafe).1.map fun f =>
      (f.profile.fqdn, f.networkClass)
    found 9 = [("a.example", .home)] ∧ found 10 = [("b.example", .roaming)] := by
  intro m cafe found
  let target : QueryTarget :=
    { bssid := ⟨0x020000000001⟩, key := ⟨some "cafe", 0x020000000001, 0, 0⟩, release := none }
  let snapshot : Snapshot :=
    { capturedAt := 0, elements := .ofList [.domainName ["A.example"], .naiRealm ["realm"]] }
  have htarget : cafe.queryTarget? = some target := by decide
  have hcached : m.cache.get? target.key = some snapshot := by decide
  have hmatch now := (match_precedence m { Platform.obliging with now } cafe).1 target snapshot
    htarget hcached
  constructor
  · show (m.matchOne _ cafe).1.map _ = _
    rw [hmatch]
    decide
  · show (m.matchOne _ cafe).1.map _ = _
    rw [hmatch]
    decide

end Manager

end Hotspot
