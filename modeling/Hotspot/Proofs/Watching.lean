/-
  Hotspot/Proofs/Watching.lean
  ============================
  **The watched applications are the owners of the user's profiles.**

  An application is watched so that its profiles can be removed when it loses the right to
  change Wi-Fi state.  A watch that is missing leaves such profiles in place; one that dangles
  asks about an application that owns nothing.  Neither happens: in every state of every run
  the watched packages are the packages that own a profile installed for the user, where a
  profile without a package need not be watched (`WatchesOwners`).

  The list of watches is also what the calls made so far add up to (`History.watches?`): no
  package is started twice, and every stop names the identity that was started.
-/
import Hotspot.Proofs.Acts

namespace Hotspot

/-! ### The watches of a history -/

/-- The watches after a call; none when the call is out of place, namely a start of a watched
    package or a stop of an identity that is not watched. -/
def Call.watches? (watches : WatchList) : Call → Option WatchList
  | .startWatching app =>
    if watches.contains app.package then none else some (watches.insert app.package app.uid)
  | .stopWatching app =>
    if watches.get? app.package = some app.uid then some (watches.erase app.package) else none
  | _ => some watches

/-- The watches that the calls of a history add up to, from none at the start. -/
def History.watches? : History → Option WatchList
  | [] => some .empty
  | call :: earlier => (History.watches? earlier).bind fun watches => call.watches? watches

theorem Call.watches?_of_isPlain {c : Call} (h : c.isPlain = true) (watches : WatchList) :
    c.watches? watches = some watches := by
  cases c <;> first | rfl | cases h

theorem History.watches?_cons_of_isPlain {c : Call} (h : c.isPlain = true) (earlier : History) :
    History.watches? (c :: earlier) = History.watches? earlier := by
  rw [History.watches?, funext (Call.watches?_of_isPlain h), Option.bind_fun_some]

theorem History.watches?_append_of_isPlain {calls : List Call}
    (h : ∀ c ∈ calls, c.isPlain = true) (earlier : History) :
    History.watches? (calls ++ earlier) = History.watches? earlier := by
  induction calls with
  | nil => rfl
  | cons c rest ih =>
    rw [List.cons_append, History.watches?_cons_of_isPlain (h c List.mem_cons_self)]
    exact ih fun c' hc => h c' (List.mem_cons_of_mem _ hc)

namespace Manager

/-- Acts keep the watches and the calls about them in step. -/
theorem Acts.watches? {b b' : Bool} {m m' : Manager} (acts : Acts b m b' m')
    (h : m.history.watches? = some m.watches) : m'.history.watches? = some m'.watches := by
  induction acts with
  | none => exact h
  | call c plain _ ih => exact (History.watches?_cons_of_isPlain plain _).trans (ih h)
  | persist p _ ih =>
    exact Option.bind_fun_some _ |>.trans (ih h)
  | startWatching app _ ih =>
    unfold Manager.startWatching
    split
    · exact ih h
    · rename_i hnew
      rw [record_history, record_watches, History.watches?, ih h, Option.bind_some,
        Call.watches?, if_neg hnew]
  | stopWatching package _ ih =>
    unfold Manager.stopWatching
    split
    · exact ih h
    · rename_i uid huid
      rw [record_history, record_watches, History.watches?, ih h, Option.bind_some,
        Call.watches?, if_pos huid]
  | setRegistry r _ ih => exact ih h
  | quiet hq _ ih =>
    obtain ⟨calls, hcalls, hquiet⟩ := hq.history
    rw [hcalls, hq.watches, History.watches?_append_of_isPlain fun c hc =>
      Call.isPlain_of_isQuiet (hquiet c hc)]
    exact ih h

/-! ### Watched packages and owners -/

/-- Watched packages own a profile installed for the user, and packages that own one are
    watched. -/
structure WatchesOwners (m : Manager) : Prop where
  owner_of_watched : ∀ package, m.isWatching package = true → m.registry.hasSavedBy package = true
  watched_of_owner : ∀ package, package ≠ "" → m.registry.hasSavedBy package = true →
    m.isWatching package = true

theorem isWatching_releaseOwner (m : Manager) (gone : Profile) (package : String) :
    (m.releaseOwner gone).isWatching package = true ↔
      m.isWatching package = true ∧
        (gone.isSavedBy package = true → m.registry.hasSavedBy package = true) := by
  unfold releaseOwner
  split
  · rename_i hrelease
    rw [Bool.and_eq_true, Bool.not_eq_true'] at hrelease
    rw [isWatching_stopWatching, Bool.and_eq_true, decide_eq_true_eq]
    by_cases hp : package = gone.owner.package
    · have hgone : gone.isSavedBy package = true := by
        rw [Profile.isSavedBy_iff]
        exact ⟨hrelease.1, hp.symm⟩
      rw [hgone, hp, hrelease.2]
      simp
    · have hgone : gone.isSavedBy package = false :=
        Bool.eq_false_iff.2 fun hc => hp (Profile.isSavedBy_iff.1 hc).2.symm
      rw [hgone]
      simp [hp]
  · rename_i hkeep
    rw [Bool.and_eq_true, Bool.not_eq_true', not_and, Bool.not_eq_false] at hkeep
    refine ⟨fun h => ⟨h, fun hgone => ?_⟩, And.left⟩
    obtain ⟨hsaved, rfl⟩ := Profile.isSavedBy_iff.1 hgone
    exact hkeep hsaved

theorem isWatching_releaseReplaced (m : Manager) (replaced : Option Profile) (package : String) :
    (m.releaseReplaced replaced).isWatching package = true ↔
      m.isWatching package = true ∧ ∀ old, replaced = some old →
        old.isSavedBy package = true → m.registry.hasSavedBy package = true := by
  cases replaced with
  | none => simp [releaseReplaced]
  | some old =>
    rw [releaseReplaced, isWatching_releaseOwner]
    simp

/-! ### Entering a profile -/

variable {m : Manager} {p : Platform}

theorem isWatching_commit (q : Profile) (package : String) :
    (m.commit p q).isWatching package = true ↔
      m.isWatching package = true ∧ ∀ old, m.registry.get? q.fqdn = some old →
        old.isSavedBy package = true → (m.registry.insert q).hasSavedBy package = true := by
  have hrefresh : (m.commit p q).isWatching package =
      (((({ m with registry := m.registry.insert q }.retireReplaced p q
        (m.registry.get? q.fqdn)).persist p).releaseReplaced
          (m.registry.get? q.fqdn)).isWatching package) := by
    unfold commit isWatching
    dsimp only
    rw [refreshCarrier_watches]
  rw [hrefresh, isWatching_releaseReplaced, persist_registry, retireReplaced_registry]
  simp only [isWatching, persist_watches, retireReplaced_watches]

theorem hasSavedBy_commit (q : Profile) (package : String) :
    (m.commit p q).registry.hasSavedBy package = (m.registry.insert q).hasSavedBy package := by
  unfold commit
  dsimp only
  rw [hasSavedBy_refreshCarrier, releaseReplaced_registry, persist_registry,
    retireReplaced_registry]

theorem isWatching_enter (q : Profile) (watch : Bool) (package : String) :
    (m.enter p q watch).isWatching package = true ↔
      (watch = true ∧ package = q.owner.package) ∨ (m.commit p q).isWatching package = true := by
  cases watch with
  | false =>
    simp only [Bool.false_eq_true, false_and, false_or]
    rfl
  | true =>
    have hstart : (m.enter p q true).isWatching package =
        ((m.commit p q).startWatching q.owner).isWatching package := rfl
    rw [hstart, isWatching_startWatching, Bool.or_eq_true, decide_eq_true_eq]
    simp only [true_and]

theorem hasSavedBy_enter (q : Profile) (watch : Bool) (package : String) :
    (m.enter p q watch).registry.hasSavedBy package = (m.registry.insert q).hasSavedBy package := by
  rw [← hasSavedBy_commit (p := p)]
  unfold enter
  rw [increment_registry]
  split
  · rw [startWatching_registry]
  · rfl

namespace WatchesOwners

theorem congr {m' : Manager} (h : WatchesOwners m)
    (hwatches : ∀ package, m'.isWatching package = m.isWatching package)
    (howners : ∀ package, m'.registry.hasSavedBy package = m.registry.hasSavedBy package) :
    WatchesOwners m' := by
  constructor
  · intro package hw
    rw [howners]
    exact h.owner_of_watched package (hwatches package ▸ hw)
  · intro package hne ho
    rw [hwatches]
    exact h.watched_of_owner package hne (howners package ▸ ho)

/-- The owner of a profile entered for the user is watched from then on, and the owner of a
    suggestion is not watched on its account. -/
theorem enter (h : WatchesOwners m) {q : Profile} {watch : Bool}
    (hsaved : watch = true → q.isSaved = true)
    (hwatch : q.isSaved = true → q.owner.package ≠ "" → watch = true) :
    WatchesOwners (m.enter p q watch) := by
  constructor
  · intro package hw
    rw [hasSavedBy_enter]
    rcases (isWatching_enter q watch package).1 hw with ⟨hnew, rfl⟩ | hold
    · exact Registry.hasSavedBy_insert_self (Profile.isSavedBy_iff.2 ⟨hsaved hnew, rfl⟩)
    · obtain ⟨hbefore, hkept⟩ := (isWatching_commit q package).1 hold
      rcases Registry.hasSavedBy_insert (h.owner_of_watched package hbefore) with
        hafter | ⟨old, hget, hold⟩
      · exact hafter
      · exact hkept old hget hold
  · intro package hne ho
    rw [hasSavedBy_enter] at ho
    rw [isWatching_enter]
    rcases Registry.hasSavedBy_of_insert ho with hnew | hbefore
    · obtain ⟨hs, rfl⟩ := Profile.isSavedBy_iff.1 hnew
      exact Or.inl ⟨hwatch hs hne, rfl⟩
    · refine Or.inr ((isWatching_commit q package).2 ⟨?_, fun _ _ _ => ho⟩)
      exact h.watched_of_owner package hne hbefore

/-! ### Operations -/

theorem importLegacy (h : WatchesOwners m) (entry : Legacy.Entry) :
    WatchesOwners (m.importLegacy p entry).2 := by
  rcases m.importLegacy_cases p entry with ⟨e, he⟩ | ⟨q, -, -, hsaved, he⟩
  · rw [he]
    exact h.congr (fun _ => rfl) (fun _ => rfl)
  · rw [he]
    have hattempted : WatchesOwners { m.increment .installAttempted with
        registry := m.registry.takeIndex } := h.congr (fun _ => rfl) (fun _ => rfl)
    exact hattempted.enter (fun _ => hsaved) fun _ hne => decide_eq_true hne

theorem remove (h : WatchesOwners m) (uid : UInt32) (privileged : Bool) (fqdn : String) :
    WatchesOwners (m.remove p uid privileged fqdn).2 := by
  rcases m.remove_cases p uid privileged fqdn with ⟨e, he⟩ | ⟨q, hget, -, he⟩
  · rw [he]
    exact h.congr (fun _ => rfl) (fun _ => rfl)
  · rw [he]
    have hwatched := isWatching_releaseOwner (({ m.increment .uninstallAttempted with
      registry := m.registry.erase fqdn }.retire p q).persist p) q
    constructor
    · intro package hw
      rw [increment_registry, releaseOwner_registry, persist_registry, retire_registry]
      obtain ⟨hbefore, hkept⟩ := (hwatched package).1 hw
      rcases Registry.hasSavedBy_erase (h.owner_of_watched package hbefore) with
        hafter | ⟨old, hold, hsaved⟩
      · exact hafter
      · rw [hget, Option.some.injEq] at hold
        exact hkept (hold ▸ hsaved)
    · intro package hne ho
      rw [increment_registry, releaseOwner_registry, persist_registry, retire_registry] at ho
      refine (hwatched package).2 ⟨?_, fun _ => ho⟩
      exact h.watched_of_owner package hne (Registry.hasSavedBy_of_erase ho)

theorem authorizationChanged (h : WatchesOwners m) (package : String) :
    WatchesOwners (m.authorizationChanged p package).2 := by
  rcases m.authorizationChanged_cases p package with ⟨-, he⟩ | ⟨uid, -, ⟨-, he⟩ | ⟨-, he⟩⟩
  · rw [he]
    exact h
  · rw [he]
    exact h.congr (fun _ => rfl) (fun _ => rfl)
  · rw [he]
    have hwatched : ∀ package', (m.revoke p uid package).isWatching package' =
        (decide (package' ≠ package) && m.isWatching package') := by
      intro package'
      rw [← isWatching_stopWatching, isWatching, isWatching, revoke_watches]
    have howned : ∀ package', (m.revoke p uid package).registry.hasSavedBy package' = true ↔
        package' ≠ package ∧ m.registry.hasSavedBy package' = true := by
      intro package'
      rw [revoke_registry, Registry.hasSavedBy_eraseSavedBy]
    constructor
    · intro package' hw
      rw [hwatched, Bool.and_eq_true, decide_eq_true_eq] at hw
      exact (howned package').2 ⟨hw.1, h.owner_of_watched package' hw.2⟩
    · intro package' hne ho
      obtain ⟨hother, ho⟩ := (howned package').1 ho
      rw [hwatched, decide_eq_true hother, Bool.true_and]
      exact h.watched_of_owner package' hne ho

theorem add (h : WatchesOwners m) (config? : Option ProfileConfig) (caller : AppIdentity)
    (isSuggestion : Bool) : WatchesOwners (m.add p config? caller isSuggestion).2 := by
  apply add_induction (I := WatchesOwners)
  · intro r g
    apply h.congr
    · intro package
      rfl
    · intro package
      unfold InstallRequest.refused
      split <;> rfl
  · intro r q hq
    have haccepted : WatchesOwners (r.accepted m p) := h.congr (fun _ => rfl) (fun _ => rfl)
    exact haccepted.enter id fun hsaved _ => hsaved

end WatchesOwners

/-! ### Restoring -/

theorem isWatching_foldl_stopWatching (packages : List String) (package : String) :
    (packages.foldl stopWatching m).isWatching package = true ↔
      package ∉ packages ∧ m.isWatching package = true := by
  induction packages generalizing m with
  | nil => simp
  | cons first rest ih =>
    rw [List.foldl_cons, ih, isWatching_stopWatching, Bool.and_eq_true, decide_eq_true_eq,
      List.mem_cons, not_or]
    constructor
    · rintro ⟨hrest, hfirst, hw⟩
      exact ⟨⟨hfirst, hrest⟩, hw⟩
    · rintro ⟨⟨hfirst, hrest⟩, hw⟩
      exact ⟨hrest, hfirst, hw⟩

theorem isWatching_foldl_startWatching (owned : List Profile) (package : String) :
    (owned.foldl (fun m q => m.startWatching q.owner) m).isWatching package = true ↔
      (∃ q ∈ owned, q.owner.package = package) ∨ m.isWatching package = true := by
  induction owned generalizing m with
  | nil => simp
  | cons q rest ih =>
    rw [List.foldl_cons, ih, isWatching_startWatching, Bool.or_eq_true, decide_eq_true_eq]
    simp only [List.mem_cons, exists_eq_or_imp]
    constructor
    · rintro (hrest | rfl | hw)
      · exact Or.inl (Or.inr hrest)
      · exact Or.inl (Or.inl rfl)
      · exact Or.inr hw
    · rintro ((rfl | hrest) | hw)
      · exact Or.inr (Or.inl rfl)
      · exact Or.inl hrest
      · exact Or.inr (Or.inr hw)

/-- **Restoring sets the watches to the owners** in the restored state, whatever was watched
    before. -/
theorem isWatching_restore (m : Manager) (s : PersistedState) (package : String) :
    (m.restore s).isWatching package = (m.registry.restore s).hasSavedBy package := by
  rw [Bool.eq_iff_iff]
  unfold restore
  dsimp only
  rw [isWatching_foldl_startWatching, isWatching_foldl_stopWatching, foldl_stopWatching_registry]
  dsimp only
  constructor
  · rintro (⟨q, hq, rfl⟩ | ⟨hkept, hw⟩)
    · obtain ⟨hmem, hsaved⟩ := List.mem_filter.1 hq
      obtain ⟨fqdn, hget⟩ := Registry.mem_values_iff.1 hmem
      exact Registry.hasSavedBy_iff.2 ⟨fqdn, q, hget, Profile.isSavedBy_iff.2 ⟨hsaved, rfl⟩⟩
    · -- a watched package that was not released is no orphan
      have hkey : package ∈ m.watches.keys := OrderedMap.mem_keys_iff.2 hw
      by_cases howns : (m.registry.restore s).hasSavedBy package = true
      · exact howns
      · refine absurd (List.mem_filter.2 ⟨hkey, ?_⟩) hkept
        rw [Bool.not_eq_true']
        exact Bool.eq_false_iff.2 howns
  · intro howns
    obtain ⟨fqdn, q, hget, hsaved⟩ := Registry.hasSavedBy_iff.1 howns
    obtain ⟨hs, rfl⟩ := Profile.isSavedBy_iff.1 hsaved
    exact Or.inl ⟨q, List.mem_filter.2 ⟨Registry.mem_values_iff.2 ⟨fqdn, hget⟩, hs⟩, rfl⟩

theorem WatchesOwners.restore (m : Manager) (s : PersistedState) :
    WatchesOwners (m.restore s) := by
  constructor
  · intro package hw
    rw [restore_registry, ← isWatching_restore]
    exact hw
  · intro package _ howns
    rw [isWatching_restore, ← restore_registry]
    exact howns

/-! ### Runs -/

theorem watchesOwners_new (settings : Settings) (matchers : Matchers) :
    WatchesOwners (new settings matchers) := by
  constructor
  · intro package hw
    cases hw
  · intro package _ howns
    cases howns

/-- **Each operation keeps watches and owners together.** -/
theorem WatchesOwners.perform (h : WatchesOwners m) (op : Operation) :
    WatchesOwners (m.perform p op).2 := by
  apply perform_induction (I := WatchesOwners)
  · intro m₁ m₂ hq h₁
    apply h₁.congr
    · intro package
      rw [isWatching, isWatching, hq.watches]
    · intro package
      rw [hq.registry]
  · intro m₁ fqdn f hf h₁
    apply h₁.congr
    · intro package
      rfl
    · intro package
      rw [persist_registry, Registry.hasSavedBy_modify _ _ _ hf]
  · intro config? caller isSuggestion _
    exact h.add config? caller isSuggestion
  · intro entry _
    exact h.importLegacy entry
  · exact h.remove
  · exact h.authorizationChanged
  · intro s _
    exact .restore m s
  · exact h

theorem watchesOwners_of_reachable (hm : m.Reachable) : WatchesOwners m :=
  hm.induction watchesOwners_new fun _ _ op h => h.perform op

theorem watches?_of_reachable (hm : m.Reachable) : m.history.watches? = some m.watches := by
  apply hm.induction (I := fun m => m.history.watches? = some m.watches)
  · intro settings matchers
    rfl
  · intro m₁ p₁ op h
    obtain ⟨b, acts⟩ := acts_perform m₁ p₁ op
    exact acts.watches? h

/-- **Watches follow owners.**  After every run the watched packages own a profile of the user,
    the packages that own one are watched, and the watches are what the calls made so far add
    up to. -/
theorem watches_follow_owners (settings : Settings) (matchers : Matchers) (steps : List Step) :
    let m := (new settings matchers).run steps
    (∀ package, m.isWatching package = true →
      ∃ fqdn q, m.registry.get? fqdn = some q ∧ q.isSavedBy package = true) ∧
    (∀ package fqdn q, package ≠ "" → m.registry.get? fqdn = some q →
      q.isSavedBy package = true → m.isWatching package = true) ∧
    m.history.watches? = some m.watches := by
  intro m
  have hm : m.Reachable := ⟨settings, matchers, steps, rfl⟩
  have howners := watchesOwners_of_reachable hm
  refine ⟨?_, ?_, watches?_of_reachable hm⟩
  · intro package hw
    exact Registry.hasSavedBy_iff.1 (howners.owner_of_watched package hw)
  · intro package fqdn q hne hget hsaved
    exact howners.watched_of_owner package hne (Registry.hasSavedBy_iff.2 ⟨fqdn, q, hget, hsaved⟩)

/-- Two applications install a profile of the user for one domain, and the second takes it
    over. -/
def takeover : List Step :=
  [(.obliging, .add (some (.ofSim "home.example")) ⟨10, "shop"⟩ false),
    (.obliging, .add (some (.ofSim "home.example")) ⟨11, "mail"⟩ false)]

theorem watches_follow_owners_takeover :
    let m := (new .default .default).run takeover
    m.isWatching "mail" = true ∧ m.isWatching "shop" = false ∧
      (∃ fqdn q, m.registry.get? fqdn = some q ∧ q.isSavedBy "mail" = true) ∧
      m.history.watches? = some m.watches := by
  intro m
  have hfollow := watches_follow_owners .default .default takeover
  have hwatched : m.isWatching "mail" = true := by decide
  exact ⟨hwatched, by decide, hfollow.1 "mail" hwatched, hfollow.2.2⟩

end Manager

end Hotspot
