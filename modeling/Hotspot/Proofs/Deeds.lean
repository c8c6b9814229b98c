/-
  Hotspot/Proofs/Deeds.lean
  =========================
  **What an operation does to the secure store, the network entries and the stored state.**

  Most calls only ask, watch or count.  Four kinds change something outside the manager: a
  credential is installed or taken out, a network entry is removed, the registry is stored.
  These are the *deeds* of an operation, and `Does m m' ds` says that from `m` to `m'` they
  are `ds`, in this order.

  An operation other than restoring makes at most one `Move` in the registry: it enters a
  profile under the next number, or takes some out.  After that profiles only change as they
  do in their life.  `turn_perform` says this of every operation together with its deeds, so
  that no later proof takes an operation apart again: what was tried in the secure store, then
  the dismissal of each profile that is gone, then what was stored.
-/
import Hotspot.Proofs.Gates
import Hotspot.Proofs.Runs

namespace Hotspot

/-- A change outside the manager. -/
inductive Deed where
  | install (profile : Profile) (accepted : Bool)
  | uninstall (profile : Profile)
  | removeEntry (key : String)
  | store (state : PersistedState)
deriving DecidableEq

def Call.deed? : Call → Option Deed
  | .install q failure => some (.install q failure.isNone)
  | .uninstall q _ => some (.uninstall q)
  | .removeDescriptor key => some (.removeEntry key)
  | .persist _ s _ => some (.store s)
  | _ => none

theorem Call.deed?_of_isQuiet {c : Call} (h : c.isQuiet = true) : c.deed? = none := by
  cases c <;> first | rfl | cases h

/-- A profile that is gone leaves its network entry to a profile with the very same one. -/
def Profile.leavesEntryTo (q : Profile) (entered : Option Profile) : Bool :=
  entered.map (·.descriptor) = some q.descriptor

/-- What is done about a profile that is gone. -/
def dismissal (entered : Option Profile) (q : Profile) : List Deed :=
  .uninstall q :: if q.leavesEntryTo entered then [] else [.removeEntry q.descriptor.key]

namespace Manager

/-- From `m` to `m'` these changes were made, the oldest first. -/
def Does (m m' : Manager) (ds : List Deed) : Prop :=
  ∃ calls, m'.history = calls ++ m.history ∧ calls.reverse.filterMap Call.deed? = ds

namespace Does

variable {m m₁ m₂ : Manager} {ds ds' : List Deed}

theorem idle (h : m₁.history = m.history) : m.Does m₁ [] := ⟨[], h, rfl⟩

theorem trans (h : m.Does m₁ ds) (h' : m₁.Does m₂ ds') : m.Does m₂ (ds ++ ds') := by
  obtain ⟨calls, hcalls, rfl⟩ := h
  obtain ⟨calls', hcalls', rfl⟩ := h'
  refine ⟨calls' ++ calls, ?_, ?_⟩
  · rw [hcalls', hcalls, List.append_assoc]
  · rw [List.reverse_append, List.filterMap_append]

theorem record {c : Call} {d : Deed} (h : m.Does m₁ ds) (hc : c.deed? = some d) :
    m.Does (m₁.record c) (ds ++ [d]) := by
  have hone : m₁.Does (m₁.record c) [d] := ⟨[c], rfl, by simp [hc]⟩
  exact h.trans hone

theorem idleCalls (calls : List Call) (h : m.Does m₁ ds)
    (hhistory : m₂.history = calls ++ m₁.history) (hidle : ∀ c ∈ calls, c.deed? = none) :
    m.Does m₂ ds := by
  have hnil : calls.reverse.filterMap Call.deed? = [] := by
    rw [List.filterMap_eq_nil_iff]
    intro c hc
    exact hidle c (List.mem_reverse.1 hc)
  have hnone : m₁.Does m₂ [] := ⟨calls, hhistory, hnil⟩
  simpa using h.trans hnone

theorem idleCall {c : Call} (h : m.Does m₁ ds) (hc : c.deed? = none) : m.Does (m₁.record c) ds := by
  apply h.idleCalls [c] rfl
  intro c' hc'
  rw [List.mem_singleton.1 hc']
  exact hc

theorem increment (c : Counter) (h : m.Does m₁ ds) : m.Does (m₁.increment c) ds :=
  h.idleCall rfl

theorem quiet (h : m.Does m₁ ds) (hq : Quiet m₁ m₂) : m.Does m₂ ds := by
  obtain ⟨calls, hcalls, hquiet⟩ := hq.history
  exact h.idleCalls calls hcalls fun c hc => Call.deed?_of_isQuiet (hquiet c hc)

/-- The changes are what the calls in between make. -/
theorem callsSince_eq (h : m.Does m₁ ds) :
    (callsSince m.history m₁.history).filterMap Call.deed? = ds := by
  obtain ⟨calls, hcalls, rfl⟩ := h
  rw [hcalls, callsSince_append]

/-- What is told of the changes can be read off the calls. -/
theorem filterMap_eq {α : Type} (h : m.Does m₁ ds) {view : Call → Option α}
    {viewed : Deed → Option α} (hview : ∀ c : Call, view c = c.deed?.bind viewed) :
    (callsSince m.history m₁.history).filterMap view = ds.filterMap viewed := by
  rw [← h.callsSince_eq, List.filterMap_filterMap, funext hview]

theorem history_filterMap {α : Type} (h : m.Does m₁ ds) {view : Call → Option α}
    {viewed : Deed → Option α} (hview : ∀ c : Call, view c = c.deed?.bind viewed) :
    m₁.history.filterMap view = (ds.filterMap viewed).reverse ++ m.history.filterMap view := by
  rw [← h.filterMap_eq hview]
  obtain ⟨calls, hcalls, -⟩ := h
  rw [hcalls, callsSince_append, List.filterMap_append, List.filterMap_reverse, List.reverse_reverse]

/-! ### Steps -/

variable {p : Platform}

theorem startWatching (app : AppIdentity) (h : m.Does m₁ ds) :
    m.Does (m₁.startWatching app) ds := by
  unfold Manager.startWatching
  split
  · exact h
  · exact h.idleCalls [.startWatching app] rfl (by simp [Call.deed?])

theorem stopWatching (package : String) (h : m.Does m₁ ds) :
    m.Does (m₁.stopWatching package) ds := by
  unfold Manager.stopWatching
  split
  · exact h
  · rename_i uid _
    exact h.idleCalls [.stopWatching { uid, package }] rfl (by simp [Call.deed?])

theorem releaseOwner (gone : Profile) (h : m.Does m₁ ds) : m.Does (m₁.releaseOwner gone) ds := by
  unfold Manager.releaseOwner
  split
  · exact h.stopWatching _
  · exact h

theorem releaseReplaced (old : Option Profile) (h : m.Does m₁ ds) :
    m.Does (m₁.releaseReplaced old) ds := by
  cases old with
  | none => exact h
  | some old => exact h.releaseOwner old

theorem disconnectFrom (domain : Option String) (removed : List Profile) (h : m.Does m₁ ds) :
    m.Does (m₁.disconnectFrom domain removed) ds := by
  unfold Manager.disconnectFrom
  split
  · exact h
  · split
    · exact h.idleCall rfl
    · exact h

theorem persist (h : m.Does m₁ ds) :
    m.Does (m₁.persist p) (ds ++ [.store m₁.registry.toState]) :=
  h.record rfl

theorem uninstall (q : Profile) (h : m.Does m₁ ds) :
    m.Does (m₁.uninstall p q) (ds ++ [.uninstall q]) :=
  h.record rfl

theorem retire (q : Profile) (h : m.Does m₁ ds) :
    m.Does (m₁.retire p q) (ds ++ dismissal none q) := by
  have hboth := (h.uninstall (p := p) q).record (c := .removeDescriptor q.descriptor.key) rfl
  rwa [List.append_assoc] at hboth

theorem retireAll (removed : List Profile) (h : m.Does m₁ ds) :
    m.Does (removed.foldl (fun m q => m.retireCounted p q) m₁)
      (ds ++ removed.flatMap (dismissal none)) := by
  induction removed generalizing m₁ ds with
  | nil => simpa using h
  | cons q rest ih =>
    have hone : m.Does (m₁.retireCounted p q) (ds ++ dismissal none q) :=
      ((h.increment .uninstallAttempted).retire q).increment .uninstallSucceeded
    simpa using ih hone

theorem retireReplaced (q : Profile) (old : Option Profile) (h : m.Does m₁ ds) :
    m.Does (m₁.retireReplaced p q old) (ds ++ old.toList.flatMap (dismissal (some q))) := by
  cases old with
  | none => simpa [Manager.retireReplaced] using h
  | some old =>
    have huninstalled := h.uninstall (p := p) old
    by_cases hsame : old.descriptor = q.descriptor
    · simpa [Manager.retireReplaced, dismissal, Profile.leavesEntryTo, hsame] using huninstalled
    · have hremoved := huninstalled.record (c := .removeDescriptor old.descriptor.key) rfl
      simpa [Manager.retireReplaced, dismissal, Profile.leavesEntryTo, hsame, Ne.symm hsame]
        using hremoved

/-- A new carrier is stored, and the next number with it. -/
theorem refreshCarrier (fqdn : String) (h : m.Does m₁ ds) :
    ∃ stored : List PersistedState, m.Does (m₁.refreshCarrier p fqdn) (ds ++ stored.map .store) ∧
      ∀ s ∈ stored, s.nextIndex = m₁.registry.nextIndex := by
  rcases m₁.refreshCarrier_cases p fqdn with he | ⟨imsi, answer, he⟩ | ⟨imsi, carrierId, he⟩ <;>
    rw [he]
  · exact ⟨[], by simpa using h, by simp⟩
  · exact ⟨[], by simpa using h.idleCall rfl, by simp⟩
  · have hasked : m.Does { m₁.record (.resolve imsi (some carrierId)) with
        registry := m₁.registry.modify fqdn (·.withCarrier carrierId) } ds :=
      h.idleCalls [.resolve imsi (some carrierId)] rfl (by simp [Call.deed?])
    exact ⟨[_], hasked.persist, by simp [Registry.toState, Registry.modify]⟩

/-- A profile is entered: the one in its place is dismissed, and the change is stored. -/
theorem enter (q : Profile) (watch : Bool) (h : m.Does m₁ ds) :
    ∃ stored : List PersistedState, m.Does (m₁.enter p q watch)
        (ds ++ (m₁.registry.get? q.fqdn).toList.flatMap (dismissal (some q)) ++
          stored.map .store) ∧
      stored ≠ [] ∧ ∀ s ∈ stored, s.nextIndex = m₁.registry.nextIndex := by
  have hinserted : m.Does { m₁ with registry := m₁.registry.insert q } ds :=
    h.idleCalls [] rfl (by simp)
  have hreleased := (((hinserted.retireReplaced (p := p) q
    (m₁.registry.get? q.fqdn)).persist (p := p)).releaseReplaced (m₁.registry.get? q.fqdn))
  obtain ⟨stored, hcommit, hstored⟩ := hreleased.refreshCarrier (p := p) q.fqdn
  rw [releaseReplaced_registry, persist_registry, retireReplaced_registry] at hstored
  refine ⟨(m₁.registry.insert q).toState :: stored, ?_, by simp, ?_⟩
  · have hcommitted : m.Does (m₁.commit p q)
        (ds ++ (m₁.registry.get? q.fqdn).toList.flatMap (dismissal (some q)) ++
          ((m₁.registry.insert q).toState :: stored).map .store) := by
      simpa [Manager.commit] using hcommit
    unfold Manager.enter
    cases watch with
    | false => exact hcommitted.increment _
    | true => exact (hcommitted.startWatching q.owner).increment _
  · intro s hs
    rcases List.mem_cons.1 hs with rfl | hs
    · rfl
    · exact hstored s hs

end Does

/-- Taking over a stored state changes nothing outside but watches. -/
theorem does_restore (m : Manager) (s : PersistedState) : m.Does (m.restore s) [] := by
  have hrestored : m.Does { m with registry := m.registry.restore s } [] := .idle rfl
  unfold restore
  refine List.foldlRecOn (motive := fun m' => m.Does m' []) _ _ ?_ ?_
  · refine List.foldlRecOn (motive := fun m' => m.Does m' []) _ _ hrestored ?_
    intro m₁ h package _
    exact h.stopWatching package
  · intro m₁ h q _
    exact h.startWatching q.owner

end Manager

/-! ### Moves -/

namespace Registry

/-- What an operation other than restoring does to the registry at once.  With it stand the
    profile that is entered, what was tried in the secure store, and the profiles that are
    gone. -/
inductive Move (r : Registry) :
    Operation → Option Profile → List Deed → List Profile → Registry → Prop
  | nothing {op : Operation} : Move r op none [] [] r
  /-- The number is used up although the credential could not be installed. -/
  | refused {config? : Option ProfileConfig} {caller : AppIdentity} {isSuggestion : Bool}
      (q : Profile) (index : q.index = r.nextIndex) :
      Move r (.add config? caller isSuggestion) none [.install q false] [] r.takeIndex
  | installed {config? : Option ProfileConfig} {caller : AppIdentity} {isSuggestion : Bool}
      (q : Profile) (index : q.index = r.nextIndex) :
      Move r (.add config? caller isSuggestion) (some q) [.install q true]
        (r.get? q.fqdn).toList (r.takeIndex.insert q)
  | imported {entry : Legacy.Entry} (q : Profile) (index : q.index = r.nextIndex) :
      Move r (.importLegacy entry) (some q) [] (r.get? q.fqdn).toList (r.takeIndex.insert q)
  | removed {op : Operation} {fqdn : String} {q : Profile} (get : r.get? fqdn = some q) :
      Move r op none [] [q] (r.erase fqdn)
  | revoked {op : Operation} (package : String) :
      Move r op none [] (r.savedBy package) (r.eraseSavedBy package)

theorem Move.tried_cases {r r' : Registry} {op : Operation} {entered : Option Profile}
    {tried : List Deed} {gone : List Profile} (h : r.Move op entered tried gone r') :
    tried = [] ∨ ∃ q accepted, tried = [.install q accepted] := by
  cases h with
  | refused q => exact Or.inr ⟨q, false, rfl⟩
  | installed q => exact Or.inr ⟨q, true, rfl⟩
  | _ => exact Or.inl rfl

/-- A move, changes of profiles in their life, and storing.  A profile that is entered or gone
    is stored. -/
structure Turn (r : Registry) (op : Operation) (entered : Option Profile) (tried : List Deed)
    (gone : List Profile) (stored : List PersistedState) (r' : Registry) : Prop where
  move : ∃ r₁, r.Move op entered tried gone r₁ ∧ r₁.Stays r'
  current : ∀ s ∈ stored, s.nextIndex = r'.nextIndex
  last : stored = [] → entered = none ∧ gone = []

end Registry

namespace Manager

def turnDeeds (entered : Option Profile) (tried : List Deed) (gone : List Profile)
    (stored : List PersistedState) : List Deed :=
  tried ++ gone.flatMap (dismissal entered) ++ stored.map .store

/-- What is told of the deeds of a turn. -/
theorem filterMap_turnDeeds {α : Type} (view : Deed → Option α) (entered : Option Profile)
    (tried : List Deed) (gone : List Profile) (stored : List PersistedState) :
    (turnDeeds entered tried gone stored).filterMap view =
      tried.filterMap view ++ gone.flatMap (fun q => (dismissal entered q).filterMap view) ++
        stored.filterMap fun s => view (.store s) := by
  rw [turnDeeds, List.filterMap_append, List.filterMap_append, List.filterMap_flatMap,
    List.filterMap_map]
  rfl

section Turns

variable {entered : Option Profile} {tried : List Deed} {gone : List Profile}
  {stored : List PersistedState}

/-- What only concerns installations is told by what was tried. -/
theorem filterMap_turnDeeds_tried {α : Type} {view : Deed → Option α}
    (huninstall : ∀ q, view (.uninstall q) = none)
    (hremove : ∀ key, view (.removeEntry key) = none) (hstore : ∀ s, view (.store s) = none) :
    (turnDeeds entered tried gone stored).filterMap view = tried.filterMap view := by
  have hdismissal : ∀ q, (dismissal entered q).filterMap view = [] := by
    intro q
    unfold dismissal
    split <;> simp [huninstall, hremove]
  rw [filterMap_turnDeeds]
  simp [hdismissal, hstore]

theorem not_mem_dismissal_install {g q : Profile} {accepted : Bool} :
    Deed.install q accepted ∉ dismissal entered g := by
  unfold dismissal
  split <;> simp

theorem not_mem_dismissal_store {g : Profile} {state : PersistedState} :
    Deed.store state ∉ dismissal entered g := by
  unfold dismissal
  split <;> simp

theorem mem_turnDeeds_install {q : Profile} {accepted : Bool} :
    Deed.install q accepted ∈ turnDeeds entered tried gone stored ↔
      Deed.install q accepted ∈ tried := by
  simp [turnDeeds, not_mem_dismissal_install]

theorem mem_turnDeeds_store {r r' : Registry} {op : Operation}
    (h : r.Move op entered tried gone r') {state : PersistedState} :
    Deed.store state ∈ turnDeeds entered tried gone stored ↔ state ∈ stored := by
  have htried : Deed.store state ∉ tried := by
    rcases h.tried_cases with rfl | ⟨q, accepted, rfl⟩ <;> simp
  simp [turnDeeds, not_mem_dismissal_store, htried]

end Turns

/-- From `m` to `m'` an operation takes its turn, with the deeds that belong to it. -/
def TakesTurn (m : Manager) (op : Operation) (entered : Option Profile) (m' : Manager) : Prop :=
  ∃ tried gone stored, m.registry.Turn op entered tried gone stored m'.registry ∧
    m.Does m' (turnDeeds entered tried gone stored)

variable {m m₁ m₂ : Manager} {p : Platform} {op : Operation} {entered : Option Profile}

theorem TakesTurn.quiet (h : m.TakesTurn op entered m₁) (hq : Quiet m₁ m₂) :
    m.TakesTurn op entered m₂ := by
  obtain ⟨tried, gone, stored, turn, does⟩ := h
  exact ⟨tried, gone, stored, hq.registry ▸ turn, does.quiet hq⟩

/-- A profile that changes in its life is stored after all else. -/
theorem TakesTurn.change (h : m.TakesTurn op entered m₁) (fqdn : String)
    {f : Profile → Profile} (hf : ∀ q : Profile, q.SameInstallation (f q)) :
    m.TakesTurn op entered
      ({ m₁ with registry := m₁.registry.modify fqdn f }.persist p) := by
  obtain ⟨tried, gone, stored, ⟨⟨r₁, move, stays⟩, current, -⟩, does⟩ := h
  have hchanged : m.Does { m₁ with registry := m₁.registry.modify fqdn f }
      (turnDeeds entered tried gone stored) := does.idleCalls [] rfl (by simp)
  refine ⟨tried, gone, stored ++ [(m₁.registry.modify fqdn f).toState], ⟨⟨r₁, move, ?_⟩, ?_, ?_⟩, ?_⟩
  · exact stays.trans (.modify m₁.registry fqdn hf)
  · intro s hs
    rcases List.mem_append.1 hs with hs | hs
    · exact current s hs
    · rw [List.mem_singleton.1 hs]
      rfl
  · simp
  · simpa [turnDeeds] using hchanged.persist (p := p)

theorem takesTurn_idle (op : Operation) (hregistry : m₁.registry = m.registry)
    (hdoes : m.Does m₁ []) : m.TakesTurn op none m₁ :=
  ⟨[], [], [], ⟨⟨m.registry, .nothing, hregistry ▸ .refl _⟩, by simp, by simp⟩, hdoes⟩

/-! ### Installing and importing -/

/-- The profile of a request gets the next number. -/
theorem index_of_profile? {r : InstallRequest} {q : Profile} (hq : r.profile? m = some q) :
    q.index = m.registry.nextIndex := by
  unfold InstallRequest.profile? at hq
  split at hq
  · cases hq
  · split at hq
    · cases hq
    · rw [← Option.some.inj hq]
      rfl

/-- What a request that comes to a gate has tried in the secure store. -/
theorem does_callsThrough (r : InstallRequest) (g : Gate) (m' : Manager)
    (h : m'.history = (r.callsThrough m p g).reverse ++ m.history) :
    m.Does m' (if g = .install then
      (r.profile? m).toList.map fun q => .install q (p.install (r.atInstall m p) q).isNone
      else []) := by
  have hcounted : ∀ calls : List Call,
      (.increment .installAttempted :: calls).filterMap Call.deed? = calls.filterMap Call.deed? :=
    fun _ => rfl
  have htrust : (r.callsThrough m p .trust).filterMap Call.deed? = [] := by
    rw [InstallRequest.callsThrough_trust, hcounted, List.filterMap_eq_nil_iff]
    intro c hc
    obtain ⟨ca, -, rfl⟩ := List.mem_map.1 hc
    rfl
  refine ⟨(r.callsThrough m p g).reverse, h, ?_⟩
  rw [List.reverse_reverse]
  cases g with
  | validation => rfl
  | trust => exact htrust
  | ownership =>
    rw [InstallRequest.callsThrough_ownership]
    exact htrust
  | install =>
    rw [InstallRequest.callsThrough_install, List.filterMap_append, htrust, List.nil_append]
    unfold InstallRequest.calls
    cases r.profile? m <;> rfl

theorem takesTurn_refused (r : InstallRequest) {g : Gate} {e : ProfileError}
    (hfailure : r.failure m p g = some e) :
    m.TakesTurn (.add r.config? r.caller r.isSuggestion) none (r.refused m p g) := by
  have hdoes := does_callsThrough (m := m) (p := p) r g (r.refused m p g) rfl
  by_cases hg : g = .install
  · subst hg
    obtain ⟨q, hq, hinstall⟩ := Option.bind_eq_some_iff.1 hfailure
    obtain ⟨cause, hcause, -⟩ := Option.map_eq_some_iff.1 hinstall
    rw [if_pos rfl, hq] at hdoes
    refine ⟨[.install q false], [], [], ⟨⟨_, .refused q (index_of_profile? hq), .refl _⟩, ?_, ?_⟩, ?_⟩
    · simp
    · simp
    · simpa [turnDeeds, hcause] using hdoes
  · rw [if_neg hg] at hdoes
    have hregistry : (r.refused m p g).registry = m.registry := by
      rw [InstallRequest.refused, if_neg hg]
    exact takesTurn_idle _ hregistry hdoes

/-- A profile is entered under the next number after what was tried in the secure store. -/
theorem takesTurn_enter (m₁ : Manager) {tried : List Deed} {q : Profile} (watch : Bool)
    (hregistry : m₁.registry = m.registry.takeIndex) (hdoes : m.Does m₁ tried)
    (hmove : m.registry.Move op (some q) tried (m.registry.get? q.fqdn).toList
      (m.registry.takeIndex.insert q)) :
    m.TakesTurn op (some q) (m₁.enter p q watch) := by
  obtain ⟨stored, hentered, hne, hcurrent⟩ := hdoes.enter (p := p) q watch
  have hstays := stays_enter m₁ p q watch
  rw [hregistry] at hentered hcurrent hstays
  refine ⟨tried, _, stored, ⟨⟨_, hmove, hstays⟩, ?_, fun h => absurd h hne⟩, hentered⟩
  intro s hs
  rw [hcurrent s hs, hstays.nextIndex]
  rfl

/-! ### What is entered -/

end Manager

/-- The profile that an operation enters if it succeeds: the one that a request to install is
    for, or the one that an entry becomes. -/
def Operation.candidate? (m : Manager) : Operation → Option Profile
  | .add config? caller isSuggestion =>
    InstallRequest.profile? { config?, caller, isSuggestion } m
  | .importLegacy entry =>
    match entry.toProfileConfig with
    | .error _ => none
    | .ok (config, type) => some (.new config m.registry.nextIndex entry.creator .saved type)
  | _ => none

namespace Manager

variable {m : Manager} {p : Platform} {op : Operation}

/-- The profile that an operation enters, as it is when it is entered. -/
def entered? (m : Manager) (p : Platform) (op : Operation) : Option Profile :=
  if (m.perform p op).1 = .done then op.candidate? m else none

theorem takesTurn_add (config? : Option ProfileConfig) (caller : AppIdentity)
    (isSuggestion : Bool) :
    m.TakesTurn (.add config? caller isSuggestion)
      (m.entered? p (.add config? caller isSuggestion))
      (m.perform p (.add config? caller isSuggestion)).2 := by
  let r : InstallRequest := { config?, caller, isSuggestion }
  have hperform : m.perform p (.add config? caller isSuggestion) =
      (m.add p r.config? r.caller r.isSuggestion).map .ofResult id := rfl
  unfold entered?
  rcases r.first_failure m p with ⟨g, e, hbefore, hfailure⟩ | hnone
  · have hadd := add_of_refused m p r g hbefore hfailure
    rw [hperform, hadd]
    exact takesTurn_refused r hfailure
  · obtain ⟨q, hq, hadd⟩ := add_of_accepted m p r hnone
    have hinstalled : p.install (r.atInstall m p) q = none :=
      (r.failure_install_eq_none_iff hq).1 (hnone .install)
    have hcandidate : (Operation.add config? caller isSuggestion).candidate? m = some q := hq
    have hdoes := does_callsThrough (m := m) (p := p) r .install (r.accepted m p) rfl
    rw [if_pos rfl, hq] at hdoes
    rw [hperform, hadd]
    simp only [Prod.map, Reply.ofResult, if_pos, hcandidate]
    refine takesTurn_enter (r.accepted m p) _ rfl ?_ (.installed q (index_of_profile? hq))
    simpa [hinstalled] using hdoes

theorem takesTurn_importLegacy (entry : Legacy.Entry) :
    m.TakesTurn (.importLegacy entry) (m.entered? p (.importLegacy entry))
      (m.perform p (.importLegacy entry)).2 := by
  have hperform : m.perform p (.importLegacy entry) =
      (m.importLegacy p entry).map .ofResult id := rfl
  have hcounted : m.Does (m.increment .installAttempted) [] := Does.increment _ (.idle rfl)
  unfold entered?
  rw [hperform, importLegacy_eq]
  cases hentry : entry.toProfileConfig with
  | error reason => exact takesTurn_idle _ rfl hcounted
  | ok converted =>
    obtain ⟨config, type⟩ := converted
    let q := Profile.new config m.registry.nextIndex entry.creator .saved type
    have hcandidate : (Operation.importLegacy entry).candidate? m = some q := by
      simp only [Operation.candidate?, hentry, q]
    simp only [Prod.map, Reply.ofResult, if_pos, hcandidate]
    exact takesTurn_enter { m.increment .installAttempted with
      registry := m.registry.takeIndex } _ rfl hcounted (.imported q rfl)

/-! ### Removing and revoking -/

theorem takesTurn_remove (uid : UInt32) (privileged : Bool) (fqdn : String) :
    m.TakesTurn op none (m.remove p uid privileged fqdn).2 := by
  have hcounted : m.Does (m.increment .uninstallAttempted) [] := Does.increment _ (.idle rfl)
  rcases m.remove_cases p uid privileged fqdn with ⟨e, h⟩ | ⟨q, hget, -, h⟩ <;> rw [h]
  · exact takesTurn_idle op rfl hcounted
  · have herased : m.Does { m.increment .uninstallAttempted with
        registry := m.registry.erase fqdn } [] := hcounted.idleCalls [] rfl (by simp)
    have hdoes := (((herased.retire (p := p) q).persist (p := p)).releaseOwner q).increment
      .uninstallSucceeded
    refine ⟨[], [q], [(m.registry.erase fqdn).toState], ⟨⟨_, .removed hget, ?_⟩, ?_, by simp⟩, ?_⟩
    · rw [increment_registry, releaseOwner_registry]
      exact .refl _
    · rw [increment_registry, releaseOwner_registry]
      simp [Registry.toState]
    · simpa [turnDeeds] using hdoes

theorem takesTurn_revoke (uid : UInt32) (package : String) :
    m.TakesTurn op none (m.revoke p uid package) := by
  let asked := (m.record (.isAuthorized { uid, package } false)).record
    (.connectedDomain (p.connectedDomain (m.record (.isAuthorized { uid, package } false)).history))
  have hasked : m.Does { asked with registry := m.registry.eraseSavedBy package } [] :=
    Does.idleCalls [.connectedDomain _, .isAuthorized _ _] (.idle rfl) rfl
      (by simp [Call.deed?])
  have hretired := hasked.retireAll (p := p) (m.registry.savedBy package)
  have hremoved : ∃ stored : List PersistedState,
      m.Does (asked.removeSavedBy p package).2
        (turnDeeds none [] (m.registry.savedBy package) stored) ∧
      (∀ s ∈ stored, s.nextIndex = m.registry.nextIndex) ∧
      (stored = [] → m.registry.savedBy package = []) := by
    by_cases hempty : m.registry.savedBy package = []
    · refine ⟨[], ?_, by simp, fun _ => hempty⟩
      simpa [removeSavedBy, turnDeeds, asked, hempty] using hretired
    · have hstored := hretired.persist (p := p)
      rw [foldl_retireCounted_registry] at hstored
      refine ⟨[(m.registry.eraseSavedBy package).toState], ?_, ?_, by simp⟩
      · simpa [removeSavedBy, turnDeeds, asked, hempty] using hstored
      · simp [Registry.toState, Registry.eraseSavedBy]
  obtain ⟨stored, hdoes, hcurrent, hlast⟩ := hremoved
  refine ⟨[], m.registry.savedBy package, stored, ⟨⟨_, .revoked package, ?_⟩, ?_, ?_⟩, ?_⟩
  · rw [revoke_registry]
    exact .refl _
  · intro s hs
    rw [hcurrent s hs, revoke_registry]
    rfl
  · intro h
    exact ⟨rfl, hlast h⟩
  · exact (hdoes.stopWatching package).disconnectFrom _ _

/-! ### Every operation -/

/-- **Every operation but restoring takes one turn.** -/
theorem turn_perform (hop : ∀ s, op ≠ .restore s) :
    m.TakesTurn op (m.entered? p op) (m.perform p op).2 := by
  -- Two operations enter a profile; the others follow from what each of their parts does.
  by_cases hadd : ∃ config? caller isSuggestion, op = .add config? caller isSuggestion
  · obtain ⟨config?, caller, isSuggestion, rfl⟩ := hadd
    exact takesTurn_add config? caller isSuggestion
  by_cases himport : ∃ entry, op = .importLegacy entry
  · obtain ⟨entry, rfl⟩ := himport
    exact takesTurn_importLegacy entry
  have hnone : m.entered? p op = none := by
    unfold entered?
    cases op with
    | add config? caller isSuggestion => exact absurd ⟨_, _, _, rfl⟩ hadd
    | importLegacy entry => exact absurd ⟨_, rfl⟩ himport
    | _ => exact ite_self none
  rw [hnone]
  apply perform_induction (I := fun m' => m.TakesTurn op none m')
  · intro m₁ m₂ hq h
    exact h.quiet hq
  · intro m₁ fqdn f hf h
    exact h.change fqdn hf
  · intro config? caller isSuggestion h
    exact absurd ⟨_, _, _, h⟩ hadd
  · intro entry h
    exact absurd ⟨_, h⟩ himport
  · exact takesTurn_remove
  · intro package
    rcases m.authorizationChanged_cases p package with ⟨-, h⟩ | ⟨uid, -, ⟨-, h⟩ | ⟨-, h⟩⟩ <;> rw [h]
    · exact takesTurn_idle op rfl (.idle rfl)
    · exact takesTurn_idle op rfl (Does.idleCall (.idle rfl) rfl)
    · exact takesTurn_revoke uid package
  · intro s h
    exact absurd h (hop s)
  · exact takesTurn_idle op rfl (.idle rfl)

end Manager

end Hotspot
