/-
  Hotspot/Proofs/Identities.lean
  ==============================
  **Which identity is watched.**

  Profiles are owned by applications, a user number and a package together, but watches are kept
  by package: a package that is watched is not watched once more, and its watch ends when the
  package owns nothing for the user any more.  So the identity of a watch is that of *one* owner,
  the one whose profile started it (`watch_origin`), and when another user of the same package
  takes over that profile it stays what it was.  It is the owner of a profile for certain when
  all users of the package are one.

  A package without a name is watched as little as possible: an import that does not name its
  package starts no watch.  But restoring does not make this exception, so an import that was
  stored is watched after all when it is restored.  It takes such a restore, or an application
  without a name, to watch the empty package.
-/
import Hotspot.Proofs.Frames
import Hotspot.Proofs.Numbering
import Hotspot.Proofs.Retirement
import Hotspot.Proofs.Revocation

namespace Hotspot

namespace Manager

variable {m : Manager} {p : Platform} {op : Operation} {app : AppIdentity}

/-! ### Owners -/

theorem bringsIn_of_entered? {q : Profile} (hq : m.entered? p op = some q)
    (hsaved : q.isSaved = true) : op.BringsIn q.owner ∧ (m.perform p op).1 = .done := by
  unfold entered? at hq
  split at hq
  · rename_i hdone
    refine ⟨?_, hdone⟩
    cases op with
    | add config? caller isSuggestion =>
      obtain ⟨-, howner, hsource⟩ := InstallRequest.of_profile? hq
      rw [hsaved] at hsource
      exact ⟨by simpa using hsource.symm, howner.symm⟩
    | importLegacy entry =>
      simp only [Operation.candidate?] at hq
      split at hq
      · cases hq
      · rw [← Option.some.inj hq]
        rfl
    | _ => cases hq
  · cases hq

/-- An application comes to own a profile of the user only by a step that brings it in. -/
theorem hasSavedOf_perform (hr : m.registry.Keyed)
    (h : (m.perform p op).2.registry.HasSavedOf app) :
    m.registry.HasSavedOf app ∨ m.BringsIn (p, op) app := by
  have hafter := h
  obtain ⟨q', hq', hsaved, rfl⟩ := h
  obtain ⟨fqdn, hget⟩ := Registry.mem_values_iff.1 hq'
  rcases op.eq_restore_or with ⟨s, rfl⟩ | hop
  · have hregistry : (m.perform p (.restore s)).2.registry = m.registry.restore s :=
      restore_registry m s
    rw [hregistry] at hget
    exact Or.inr ⟨⟨q', (Registry.get?_restore hget).1, hsaved, rfl⟩, rfl, hafter⟩
  · obtain ⟨tried, stored, turn, -⟩ := turn_retires (p := p) hr hop
    rcases turn.origin hr hget with ⟨q, hentered, -, hsame⟩ | ⟨q, hbefore, -, hsame⟩
    · obtain ⟨hbrings, hdone⟩ := bringsIn_of_entered? hentered (hsame.isSaved.symm.trans hsaved)
      exact Or.inr ⟨hsame.owner ▸ hbrings, hdone, hafter⟩
    · exact Or.inl ⟨q, Registry.mem_values_iff.2 ⟨fqdn, hbefore⟩,
        hsame.isSaved.symm.trans hsaved, hsame.owner.symm⟩

theorem hasSavedOf_run {steps : List Step} (hr : m.registry.Keyed)
    (h : (m.run steps).registry.HasSavedOf app) :
    m.registry.HasSavedOf app ∨
      ∃ before s after, steps = before ++ s :: after ∧ (m.run before).BringsIn s app := by
  induction steps generalizing m with
  | nil => exact Or.inl h
  | cons s rest ih =>
    rcases ih (keyed_perform hr s.2) h with hafter | ⟨before, s', after, rfl, hbrings⟩
    · rcases hasSavedOf_perform hr hafter with hbefore | hbrings
      · exact Or.inl hbefore
      · exact Or.inr ⟨[], s, rest, rfl, hbrings⟩
    · exact Or.inr ⟨s :: before, s', after, rfl, hbrings⟩

/-! ### The identity of a watch -/

variable {package : String} {uid : UInt32}

theorem get?_stopWatching (m : Manager) (package package' : String) :
    (m.stopWatching package).watches.get? package' =
      if package' = package then none else m.watches.get? package' := by
  unfold stopWatching
  split
  · rename_i hnone
    by_cases h : package' = package
    · rw [if_pos h, h, hnone]
    · rw [if_neg h]
  · exact OrderedMap.get?_erase ..

theorem get?_startWatching (m : Manager) (app : AppIdentity) :
    (m.startWatching app).watches.get? package = some uid →
      m.watches.get? package = some uid ∨ app = ⟨uid, package⟩ := by
  unfold startWatching
  split
  · exact Or.inl
  · intro h
    have hinsert : (m.watches.insert app.package app.uid).get? package = some uid := h
    rw [OrderedMap.get?_insert] at hinsert
    by_cases hp : package = app.package
    · rw [if_pos hp, Option.some.injEq] at hinsert
      obtain ⟨uid', package'⟩ := app
      exact Or.inr (by rw [hp, ← hinsert])
    · rw [if_neg hp] at hinsert
      exact Or.inl hinsert

/-- **The identity of a watch** is that of before, or that of an application that the operation
    brings in a profile of. -/
theorem watched_perform (h : (m.perform p op).2.watches.get? package = some uid) :
    m.watches.get? package = some uid ∨
      (op.MayWatch ⟨uid, package⟩ ∧ m.BringsIn (p, op) ⟨uid, package⟩) := by
  have hunmoved : Unmoved fun m' => m'.watches.get? package = some uid →
      m.watches.get? package = some uid ∨
        (op.MayWatch ⟨uid, package⟩ ∧ m.BringsIn (p, op) ⟨uid, package⟩) := by
    constructor
    case registry => exact fun _ _ hm => hm
    case call => exact fun _ _ _ hm => hm
    case stop =>
      intro m₁ package' hm h'
      rw [get?_stopWatching] at h'
      split at h'
      · cases h'
      · exact hm h'
  refine hunmoved.perform_of_quiet ?_ ?_ Or.inl h
  · intro m₁ m₂ hq hm h'
    exact hm (hq.watches ▸ h')
  · intro m₁ app hmay hbrings hm h'
    rcases get?_startWatching m₁ app h' with hbefore | rfl
    · exact hm hbefore
    · exact Or.inr ⟨hmay, hbrings⟩

/-- **Where a watch comes from.**  A watch at the end of a run was there all along, or there is
    a step that brought in a profile of its identity, and it was there ever since. -/
theorem watch_origin {steps : List Step} (h : (m.run steps).watches.get? package = some uid) :
    (∀ before, before <+: steps → (m.run before).watches.get? package = some uid) ∨
    ∃ before s after, steps = before ++ s :: after ∧ s.2.MayWatch ⟨uid, package⟩ ∧
      (m.run before).BringsIn s ⟨uid, package⟩ ∧
      ∀ since, since <+: after →
        (m.run (before ++ s :: since)).watches.get? package = some uid := by
  induction steps generalizing m with
  | nil =>
    refine Or.inl fun before hbefore => ?_
    rw [List.prefix_nil.1 hbefore]
    exact h
  | cons s rest ih =>
    rcases ih h with hall | ⟨before, s', after, rfl, hmay, hbrings, hsince⟩
    · rcases watched_perform (hall [] List.nil_prefix) with hstart | ⟨hmay, hbrings⟩
      · refine Or.inl fun before hbefore => ?_
        rcases List.prefix_cons_iff.1 hbefore with rfl | ⟨since, rfl, hsince⟩
        · exact hstart
        · exact hall since hsince
      · exact Or.inr ⟨[], s, rest, rfl, hmay, hbrings, hall⟩
    · exact Or.inr ⟨s :: before, s', after, rfl, hmay, hbrings, hsince⟩

end Manager

def Call.asksAbout? : Call → Option AppIdentity
  | .isAuthorized app _ => some app
  | _ => none

namespace Manager

variable {m : Manager} {p : Platform} {package : String} {uid : UInt32}

/-- A change of authorization asks about the identity of the watch, and about no other. -/
theorem asksAbout_authorizationChanged (huid : m.watches.get? package = some uid) :
    (callsSince m.history (m.authorizationChanged p package).2.history).filterMap
      Call.asksAbout? = [⟨uid, package⟩] := by
  rcases m.authorizationChanged_cases p package with
    ⟨hnone, -⟩ | ⟨uid', huid', ⟨-, he⟩ | ⟨-, he⟩⟩
  · rw [huid] at hnone
    cases hnone
  · rw [huid, Option.some.injEq] at huid'
    subst huid'
    rw [he, callsSince_record]
    rfl
  · rw [huid, Option.some.injEq] at huid'
    subst huid'
    have hquestion : ∀ c : Call, c.question.asksAbout? = c.asksAbout? := by
      intro c
      cases c <;> rfl
    have hretired : ((m.registry.savedBy package).flatMap retirement).filterMap
        Call.asksAbout? = [] := by
      rw [List.filterMap_flatMap, List.flatMap_eq_nil_iff]
      exact fun _ _ => rfl
    rw [he, (asks_revoke m p huid).filterMap_eq hquestion]
    unfold revocation
    dsimp only
    split <;> split <;>
      simp only [List.filterMap_append, hretired, List.filterMap_cons, List.filterMap_nil,
        Call.asksAbout?, List.append_nil]

/-- **A watch is of an owner, once.**  A watched package owns a profile of the user.  The identity
    of the watch owned one when a step brought it in, and the watch stayed what it was since; a
    change of authorization asks about this identity and no other.  It owns a profile still if all
    profiles of the user that the run brought in for the package are of one user. -/
theorem watch_is_of_an_owner {settings : Settings} {matchers : Matchers} {steps : List Step}
    {package : String} {uid : UInt32}
    (huid : ((new settings matchers).run steps).watches.get? package = some uid) :
    let start := new settings matchers
    let m := start.run steps
    (∃ fqdn q, m.registry.get? fqdn = some q ∧ q.isSavedBy package = true) ∧
    (∃ before s after, steps = before ++ s :: after ∧ s.2.MayWatch ⟨uid, package⟩ ∧
      (start.run before).BringsIn s ⟨uid, package⟩ ∧
      ∀ since, since <+: after →
        (start.run (before ++ s :: since)).watches.get? package = some uid) ∧
    (∀ p, (callsSince m.history (m.authorizationChanged p package).2.history).filterMap
      Call.asksAbout? = [⟨uid, package⟩]) ∧
    ((∀ before s after, steps = before ++ s :: after → ∀ uid',
        (start.run before).BringsIn s ⟨uid', package⟩ → uid' = uid) →
      m.registry.HasSavedOf ⟨uid, package⟩) := by
  intro start m
  have hwatched : m.isWatching package = true := OrderedMap.contains_eq_true_iff.2 ⟨uid, huid⟩
  have howners := watchesOwners_of_reachable ⟨settings, matchers, steps, rfl⟩
  obtain ⟨fqdn, q, hget, hq⟩ :=
    Registry.hasSavedBy_iff.1 (howners.owner_of_watched package hwatched)
  refine ⟨⟨fqdn, q, hget, hq⟩, ?_, fun p => asksAbout_authorizationChanged huid, fun hone => ?_⟩
  · rcases watch_origin huid with hall | horigin
    · cases hall [] List.nil_prefix
    · exact horigin
  · obtain ⟨hsaved, hpackage⟩ := Profile.isSavedBy_iff.1 hq
    have howns : m.registry.HasSavedOf q.owner :=
      ⟨q, Registry.mem_values_iff.2 ⟨fqdn, hget⟩, hsaved, rfl⟩
    rcases hasSavedOf_run Registry.keyed_empty howns with
      ⟨q', hnone, -⟩ | ⟨before, s, after, hsteps, hbrings⟩
    · cases hnone
    · have howner : q.owner = ⟨q.owner.uid, package⟩ := by rw [← hpackage]
      have huser : q.owner.uid = uid := hone before s after hsteps q.owner.uid (howner ▸ hbrings)
      rw [← huser, ← howner]
      exact howns

def handover : List Step :=
  [(.obliging, .add (some (.ofSim "home.example")) ⟨10, "shop"⟩ false),
    (.obliging, .add (some (.ofSim "home.example")) ⟨11, "shop"⟩ false)]

/-- The first user is watched in the end, and is the one asked about. -/
theorem watch_is_of_an_owner_handover :
    let m := (new .default .default).run handover
    m.watches.get? "shop" = some 10 ∧
      (∃ fqdn q, m.registry.get? fqdn = some q ∧ q.isSavedBy "shop" = true) ∧
      (callsSince m.history (m.authorizationChanged (.failing none) "shop").2.history).filterMap
        Call.asksAbout? = [⟨10, "shop"⟩] := by
  intro m
  have huid : m.watches.get? "shop" = some 10 := by decide
  obtain ⟨howns, -, hasks, -⟩ := watch_is_of_an_owner huid
  exact ⟨huid, howns, hasks (.failing none)⟩

/-- **The identity of a watch need not own anything.**  After the handover every profile is the
    second user's. -/
theorem watched_identity_owns_nothing :
    ¬ ∀ (m : Manager) (package : String) (uid : UInt32), m.Reachable →
      m.watches.get? package = some uid → m.registry.HasSavedOf ⟨uid, package⟩ := by
  intro hclaim
  let m := (new .default .default).run handover
  have hm : m.Reachable := ⟨.default, .default, handover, rfl⟩
  have huid : m.watches.get? "shop" = some 10 := by decide
  have hothers : ∀ q ∈ m.registry.profiles.values, q.owner ≠ ⟨10, "shop"⟩ := by decide
  obtain ⟨q, hq, -, howner⟩ := hclaim m "shop" 10 hm huid
  exact hothers q hq howner

/-! ### Packages without a name -/

theorem started_perform {op : Operation} {app : AppIdentity}
    (h : .startWatching app ∈ (m.perform p op).2.history) :
    .startWatching app ∈ m.history ∨ op.MayWatch app := by
  have hunmoved : Unmoved fun m' => .startWatching app ∈ m'.history →
      .startWatching app ∈ m.history ∨ op.MayWatch app := by
    constructor
    case registry => exact fun _ _ hm => hm
    case call =>
      intro m₁ c hc hm h'
      rcases List.mem_cons.1 h' with rfl | hbefore
      · cases hc
      · exact hm hbefore
    case stop =>
      intro m₁ package' hm h'
      unfold stopWatching at h'
      split at h'
      · exact hm h'
      · exact hm (by simpa using h')
  refine hunmoved.perform_of_quiet ?_ ?_ Or.inl h
  · intro m₁ m₂ hq hm h'
    obtain ⟨calls, hcalls, hquiet⟩ := hq.history
    rw [hcalls] at h'
    rcases List.mem_append.1 h' with hnew | hbefore
    · cases hquiet _ hnew
    · exact hm hbefore
  · intro m₁ app' hmay _ hm h'
    unfold startWatching at h'
    split at h'
    · exact hm h'
    · rcases List.mem_cons.1 h' with hnew | hbefore
      · obtain rfl := Call.startWatching.inj hnew
        exact Or.inr hmay
      · exact hm hbefore

theorem started_run {steps : List Step} {app : AppIdentity}
    (h : .startWatching app ∈ (m.run steps).history) :
    .startWatching app ∈ m.history ∨ ∃ s ∈ steps, s.2.MayWatch app := by
  induction steps generalizing m with
  | nil => exact Or.inl h
  | cons s rest ih =>
    rcases ih h with hafter | ⟨s', hs', hmay⟩
    · rcases started_perform hafter with hbefore | hmay
      · exact Or.inl hbefore
      · exact Or.inr ⟨s, List.mem_cons_self, hmay⟩
    · exact Or.inr ⟨s', List.mem_cons_of_mem _ hs', hmay⟩

end Manager

/-- An operation that no application without a name takes part in: one that installs a profile
    names its package, and so does the owner of each profile of the user that is restored.
    Imports may leave their package out. -/
def Operation.NamesPackages : Operation → Prop
  | .add _ caller _ => caller.package ≠ ""
  | .restore s => ∀ q ∈ s.profiles, q.isSaved = true → q.owner.package ≠ ""
  | _ => True

theorem Operation.NamesPackages.not_mayWatch {op : Operation} (h : op.NamesPackages)
    (uid : UInt32) : ¬ op.MayWatch ⟨uid, ""⟩ := by
  rintro ⟨hbrings, himport⟩
  cases op with
  | add config? caller isSuggestion => exact h (congrArg AppIdentity.package hbrings.2)
  | importLegacy entry => exact himport entry rfl rfl
  | restore s =>
    obtain ⟨q, hq, hsaved, howner⟩ := hbrings
    exact h q hq hsaved (congrArg AppIdentity.package howner)
  | _ => exact hbrings

namespace Manager

/-- **A package without a name is not watched** in a run in which no application without a name
    installs anything and no profile of the user without a package is restored, although such
    profiles may be imported.  It is never started to be watched, and a change of its
    authorization does nothing.  A restored profile of that kind is watched. -/
theorem unnamed_is_not_watched {settings : Settings} {matchers : Matchers} {steps : List Step}
    (hsteps : ∀ s ∈ steps, s.2.NamesPackages) :
    let m := (new settings matchers).run steps
    m.isWatching "" = false ∧ (∀ uid, .startWatching ⟨uid, ""⟩ ∉ m.history) ∧
      (∀ p, m.authorizationChanged p "" = (0, m)) ∧
      ∀ s, (m.restore s).isWatching "" = (m.registry.restore s).hasSavedBy "" := by
  intro m
  have hnone : m.watches.get? "" = none := by
    rw [Option.eq_none_iff_forall_ne_some]
    intro uid huid
    rcases watch_origin huid with hall | ⟨before, s, after, rfl, hmay, -⟩
    · cases hall [] List.nil_prefix
    · exact (hsteps s (by simp)).not_mayWatch uid hmay
  refine ⟨?_, ?_, ?_, fun s => isWatching_restore m s ""⟩
  · rw [isWatching, OrderedMap.contains, hnone]
    rfl
  · intro uid hstarted
    rcases started_run hstarted with hbefore | ⟨s, hs, hmay⟩
    · cases hbefore
    · exact (hsteps s hs).not_mayWatch uid hmay
  · intro p
    rcases m.authorizationChanged_cases p "" with ⟨-, he⟩ | ⟨uid, huid, -⟩
    · exact he
    · rw [hnone] at huid
      cases huid

def unnamedImport : List Step :=
  [(.obliging, .importLegacy { Legacy.Entry.ofSim "home.example" with creatorPackage := "" })]

theorem unnamed_is_not_watched_import :
    let m := (new .default .default).run unnamedImport
    m.registry.hasSavedBy "" = true ∧ m.isWatching "" = false ∧
      m.authorizationChanged (.failing none) "" = (0, m) := by
  intro m
  have hsteps : ∀ s ∈ unnamedImport, s.2.NamesPackages := by
    simp [unnamedImport, Operation.NamesPackages]
  obtain ⟨hunwatched, -, hchanged, -⟩ := unnamed_is_not_watched hsteps
  exact ⟨by decide, hunwatched, hchanged (.failing none)⟩

/-- Runs in which every application that installs a profile names its package, and which restore
    only what a manager stored in such a run. -/
inductive NamedRun : List Step → Prop where
  | nil : NamedRun []
  | step {steps : List Step} {s : Step} (named : s.2.NamesPackages)
      (keeps : ∀ state, s.2 ≠ .restore state) : NamedRun steps → NamedRun (steps ++ [s])
  | restore {steps earlier : List Step} {settings : Settings} {matchers : Matchers}
      {p : Platform} {immediate : Bool} {state : PersistedState} {failure : Option PlatformError}
      (stored : .persist immediate state failure ∈ ((new settings matchers).run earlier).history) :
      NamedRun steps → NamedRun earlier → NamedRun (steps ++ [(p, .restore state)])

/-- **What was imported without a package is watched when it is restored**, although every
    application named itself. -/
theorem unnamed_watched_after_restore :
    ¬ ∀ (settings : Settings) (matchers : Matchers) (steps : List Step), NamedRun steps →
      let m := (new settings matchers).run steps
      m.isWatching "" = false ∧ (∀ uid, .startWatching ⟨uid, ""⟩ ∉ m.history) ∧
        ∀ p, (m.authorizationChanged p "").1 = 0 ∧
          (m.authorizationChanged p "").2.registry = m.registry := by
  intro hclaim
  let state := ((new .default .default).run unnamedImport).registry.toState
  have himported : NamedRun ([] ++ unnamedImport) := by
    unfold unnamedImport
    exact .step trivial (by simp) .nil
  have hstored : .persist true state none ∈ ((new .default .default).run unnamedImport).history := by
    decide
  have hrestored : NamedRun ([] ++ [(.obliging, .restore state)]) :=
    .restore hstored .nil himported
  have hunwatched := (hclaim .default .default _ hrestored).1
  revert hunwatched
  decide

end Manager

end Hotspot
