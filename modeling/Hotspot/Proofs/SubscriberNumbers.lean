/-
  Hotspot/Proofs/SubscriberNumbers.lean
  =====================================
  **Which subscriber numbers the platform gets to see.**

  A number goes to the platform when the carrier of a profile is asked for, and then it is the
  whole number of that profile (`Resolves.refreshCarrier`).  Of the operations installing and
  importing ask once, for the profile that is entered; matching a scan asks for home matches; all
  others ask for none.  So a number that is masked is never asked for (`AsksWhole.run`).
-/
import Hotspot.Proofs.CompleteConfigs
import Hotspot.Proofs.Deeds

namespace Hotspot

def Call.resolved? : Call → Option String
  | .resolve imsi _ => some imsi
  | _ => none

namespace Profile

/-- A number that is asked for is not masked. -/
theorem getLast?_of_imsi? {q : Profile} {imsi : String} (h : q.imsi? = some imsi) :
    imsi.toList.getLast? ≠ some '*' := by
  obtain ⟨sim, -, hfull⟩ := Option.bind_eq_some_iff.1 h
  unfold SimCredential.fullImsi? at hfull
  split at hfull
  · cases hfull
  · rename_i hwhole
    cases hfull
    simpa [SimCredential.isMasked] using hwhole

end Profile

namespace Manager

/-! ### What calls show -/

section Shows

variable {α : Type} {view : Call → Option α} {m m₁ m₂ : Manager} {shown shown' : List α}

/-- From `m` to `m'` the calls show this, the oldest first. -/
def Shows (view : Call → Option α) (m m' : Manager) (shown : List α) : Prop :=
  ∃ calls, m'.history = calls ++ m.history ∧ calls.reverse.filterMap view = shown

namespace Shows

theorem idle (h : m₁.history = m.history) : Shows view m m₁ [] := ⟨[], h, rfl⟩

theorem trans (h : Shows view m m₁ shown) (h' : Shows view m₁ m₂ shown') :
    Shows view m m₂ (shown ++ shown') := by
  obtain ⟨calls, hcalls, rfl⟩ := h
  obtain ⟨calls', hcalls', rfl⟩ := h'
  refine ⟨calls' ++ calls, ?_, ?_⟩
  · rw [hcalls', hcalls, List.append_assoc]
  · rw [List.reverse_append, List.filterMap_append]

theorem record {c : Call} {a : α} (h : Shows view m m₁ shown) (hc : view c = some a) :
    Shows view m (m₁.record c) (shown ++ [a]) :=
  h.trans ⟨[c], rfl, by simp [hc]⟩

theorem silentCalls (calls : List Call) (h : Shows view m m₁ shown)
    (hhistory : m₂.history = calls ++ m₁.history) (hcalls : ∀ c ∈ calls, view c = none) :
    Shows view m m₂ shown := by
  have hnil : calls.reverse.filterMap view = [] :=
    List.filterMap_eq_nil_iff.2 fun c hc => hcalls c (List.mem_reverse.1 hc)
  have hnone : Shows view m₁ m₂ [] := ⟨calls, hhistory, hnil⟩
  simpa using h.trans hnone

theorem silent {c : Call} (h : Shows view m m₁ shown) (hc : view c = none) :
    Shows view m (m₁.record c) shown :=
  h.silentCalls [c] rfl fun _ hc' => List.mem_singleton.1 hc' ▸ hc

/-- What is shown does not depend on the rest of the state. -/
theorem congr (h : Shows view m m₁ shown) (hhistory : m₂.history = m₁.history) :
    Shows view m m₂ shown := by
  obtain ⟨calls, hcalls, hshown⟩ := h
  exact ⟨calls, hhistory.trans hcalls, hshown⟩

theorem callsSince_eq (h : Shows view m m₁ shown) :
    (callsSince m.history m₁.history).filterMap view = shown := by
  obtain ⟨calls, hcalls, rfl⟩ := h
  rw [hcalls, callsSince_append]

end Shows

end Shows

/-! ### Steps that ask for no carrier -/

namespace Shows

variable {m m₁ : Manager} {imsis : List String} {p : Platform}

theorem startWatching (app : AppIdentity) (h : Shows Call.resolved? m m₁ imsis) :
    Shows Call.resolved? m (m₁.startWatching app) imsis := by
  unfold Manager.startWatching
  split
  · exact h
  · exact (h.congr rfl).silent (c := .startWatching app) rfl

theorem stopWatching (package : String) (h : Shows Call.resolved? m m₁ imsis) :
    Shows Call.resolved? m (m₁.stopWatching package) imsis := by
  unfold Manager.stopWatching
  split
  · exact h
  · rename_i uid _
    exact (h.congr rfl).silent (c := .stopWatching { uid, package }) rfl

theorem releaseOwner (gone : Profile) (h : Shows Call.resolved? m m₁ imsis) :
    Shows Call.resolved? m (m₁.releaseOwner gone) imsis := by
  unfold Manager.releaseOwner
  split
  · exact h.stopWatching _
  · exact h

theorem releaseReplaced (old : Option Profile) (h : Shows Call.resolved? m m₁ imsis) :
    Shows Call.resolved? m (m₁.releaseReplaced old) imsis := by
  cases old with
  | none => exact h
  | some old => exact h.releaseOwner old

theorem retire (q : Profile) (h : Shows Call.resolved? m m₁ imsis) :
    Shows Call.resolved? m (m₁.retire p q) imsis :=
  (h.silent (c := .uninstall q _) rfl).silent rfl

theorem retireReplaced (q : Profile) (old : Option Profile)
    (h : Shows Call.resolved? m m₁ imsis) :
    Shows Call.resolved? m (m₁.retireReplaced p q old) imsis := by
  unfold Manager.retireReplaced
  split
  · exact h
  · split
    · exact h.silent rfl
    · exact (h.silent (c := .uninstall _ _) rfl).silent rfl

theorem persist (h : Shows Call.resolved? m m₁ imsis) :
    Shows Call.resolved? m (m₁.persist p) imsis :=
  h.silent rfl

/-- A carrier is asked for by the whole number of the profile, if it has one. -/
theorem refreshCarrier (fqdn : String) (h : Shows Call.resolved? m m₁ imsis) :
    Shows Call.resolved? m (m₁.refreshCarrier p fqdn)
      (imsis ++ ((m₁.registry.get? fqdn).bind (·.imsi?)).toList) := by
  rcases m₁.refreshCarrier_told p fqdn with ⟨hnone, he⟩ |
    ⟨q, imsi, hget, himsi, ⟨-, he⟩ | ⟨carrierId, -, he⟩⟩
  · rw [he, hnone, Option.toList_none, List.append_nil]
    exact h
  · rw [he, hget, Option.bind_some, himsi]
    exact h.record rfl
  · rw [he, hget, Option.bind_some, himsi]
    have hasked := h.record (c := .resolve imsi (some carrierId)) rfl
    have hcarried : Shows Call.resolved? m { m₁.record (.resolve imsi (some carrierId)) with
        registry := m₁.registry.modify fqdn (·.withCarrier carrierId) } (imsis ++ [imsi]) :=
      hasked.congr rfl
    exact hcarried.persist

theorem enter (q : Profile) (watch : Bool) (h : Shows Call.resolved? m m₁ imsis) :
    Shows Call.resolved? m (m₁.enter p q watch) (imsis ++ q.imsi?.toList) := by
  have hinserted : Shows Call.resolved? m { m₁ with registry := m₁.registry.insert q } imsis :=
    h.congr rfl
  have hreleased := ((hinserted.retireReplaced (p := p) q
    (m₁.registry.get? q.fqdn)).persist (p := p)).releaseReplaced (m₁.registry.get? q.fqdn)
  have hcommitted := hreleased.refreshCarrier (p := p) q.fqdn
  rw [releaseReplaced_registry, persist_registry, retireReplaced_registry, Registry.get?_insert,
    if_pos rfl, Option.bind_some] at hcommitted
  unfold Manager.enter
  cases watch with
  | false => exact hcommitted.silent rfl
  | true => exact (hcommitted.startWatching q.owner).silent rfl

theorem disconnectFrom (domain : Option String) (removed : List Profile)
    (h : Shows Call.resolved? m m₁ imsis) :
    Shows Call.resolved? m (m₁.disconnectFrom domain removed) imsis := by
  unfold Manager.disconnectFrom
  split
  · exact h
  · split
    · exact h.silent rfl
    · exact h

theorem removeSavedBy (package : String) (h : Shows Call.resolved? m m₁ imsis) :
    Shows Call.resolved? m (m₁.removeSavedBy p package).2 imsis := by
  have herased : Shows Call.resolved? m
      { m₁ with registry := m₁.registry.eraseSavedBy package } imsis := h.congr rfl
  have hretired := List.foldlRecOn (motive := fun m' => Shows Call.resolved? m m' imsis)
    (m₁.registry.savedBy package) (fun m' q => m'.retireCounted p q) herased fun m' h' q _ =>
      ((h'.silent (c := .increment .uninstallAttempted) rfl).retire q).silent rfl
  unfold Manager.removeSavedBy
  dsimp only
  split
  · exact hretired
  · exact hretired.persist

theorem matchOne (ap : AccessPoint) (h : Shows Call.resolved? m m₁ imsis) :
    Shows Call.resolved? m (m₁.matchOne p ap).2 imsis := by
  unfold Manager.matchOne
  split
  · exact h
  · split
    · exact h
    · unfold requestFetch
      split
      · dsimp only
        split
        · exact ((h.silent (c := .issueFetch _ _ _ _) rfl).congr rfl).silent rfl
        · exact h.silent (c := .issueFetch _ _ _ _) rfl
      · exact h

end Shows

/-! ### Operations -/

variable {m : Manager} {p : Platform}

/-- A request asks for the carrier of one profile at most. -/
theorem shows_add (config? : Option ProfileConfig) (caller : AppIdentity) (isSuggestion : Bool) :
    ∃ q? : Option Profile, Shows Call.resolved? m (m.add p config? caller isSuggestion).2
      (q?.bind (·.imsi?)).toList := by
  have hthrough (r : InstallRequest) (g : Gate) :
      ∀ c ∈ (r.callsThrough m p g).reverse, c.resolved? = none := by
    intro c hc
    rcases r.mem_callsThrough (List.mem_reverse.1 hc) with rfl | ⟨ca, failure, rfl⟩ |
      ⟨q, failure, rfl⟩ <;> rfl
  apply add_induction (I := fun m' => ∃ q? : Option Profile,
    Shows Call.resolved? m m' (q?.bind (·.imsi?)).toList)
  · intro r g
    exact ⟨none, Shows.silentCalls _ (.idle rfl) rfl (hthrough r g)⟩
  · intro r q _
    have haccepted : Shows Call.resolved? m (r.accepted m p) [] :=
      Shows.silentCalls _ (.idle rfl) rfl (hthrough r .install)
    exact ⟨some q, haccepted.enter q q.isSaved⟩

theorem shows_importLegacy (entry : Legacy.Entry) :
    ∃ q? : Option Profile, Shows Call.resolved? m (m.importLegacy p entry).2
      (q?.bind (·.imsi?)).toList := by
  have hcounted : Shows Call.resolved? m (m.increment .installAttempted) [] :=
    Shows.silent (.idle rfl) rfl
  rcases m.importLegacy_cases p entry with ⟨e, he⟩ | ⟨q, -, -, -, he⟩
  · rw [he]
    exact ⟨none, hcounted⟩
  · rw [he]
    have htaken : Shows Call.resolved? m { m.increment .installAttempted with
        registry := m.registry.takeIndex } [] := hcounted.congr rfl
    exact ⟨some q, htaken.enter q _⟩

theorem shows_remove (uid : UInt32) (privileged : Bool) (fqdn : String) :
    Shows Call.resolved? m (m.remove p uid privileged fqdn).2 [] := by
  have hcounted : Shows Call.resolved? m (m.increment .uninstallAttempted) [] :=
    Shows.silent (.idle rfl) rfl
  rcases m.remove_cases p uid privileged fqdn with ⟨e, he⟩ | ⟨q, -, -, he⟩
  · rw [he]
    exact hcounted
  · rw [he]
    have herased : Shows Call.resolved? m { m.increment .uninstallAttempted with
        registry := m.registry.erase fqdn } [] := hcounted.congr rfl
    exact ((herased.retire q).persist.releaseOwner q).silent rfl

theorem shows_authorizationChanged (package : String) :
    Shows Call.resolved? m (m.authorizationChanged p package).2 [] := by
  rcases m.authorizationChanged_cases p package with ⟨-, he⟩ | ⟨uid, -, ⟨-, he⟩ | ⟨-, he⟩⟩
  · rw [he]
    exact .idle rfl
  · rw [he]
    exact Shows.silent (.idle rfl) rfl
  · rw [he]
    have hasked : Shows Call.resolved? m (m.record (.isAuthorized { uid, package } false)) [] :=
      Shows.silent (.idle rfl) rfl
    unfold revoke
    refine Shows.disconnectFrom _ _ (Shows.stopWatching _ (Shows.removeSavedBy _ ?_))
    exact hasked.silent rfl

theorem shows_restore (s : PersistedState) : Shows Call.resolved? m (m.restore s) [] := by
  unfold restore
  refine List.foldlRecOn (motive := fun m' => Shows Call.resolved? m m' []) _ _ ?_ ?_
  · refine List.foldlRecOn (motive := fun m' => Shows Call.resolved? m m' []) _ _ (.idle rfl) ?_
    intro m' h package _
    exact h.stopWatching package
  · intro m' h q _
    exact h.startWatching q.owner

end Manager

def Operation.mayResolve : Operation → Bool
  | .add .. => true
  | .importLegacy _ => true
  | .matchAll _ => true
  | _ => false

namespace Manager

variable {m : Manager} {p : Platform}

/-- **Only installing, importing and matching a scan ask for carriers.** -/
theorem shows_perform_nothing {op : Operation} (hop : op.mayResolve = false) :
    Shows Call.resolved? m (m.perform p op).2 [] := by
  have hone (c : Call) (hc : c.resolved? = none) : Shows Call.resolved? m (m.record c) [] :=
    Shows.silent (.idle rfl) hc
  have hresult (bssid : MacAddress) (es : Anqp.Elements) :
      Shows Call.resolved? m (m.fetchResult p bssid es).2 [] := by
    unfold fetchResult
    split
    · exact hone _ rfl
    · exact .idle rfl
  have hfailure (bssid : MacAddress) : Shows Call.resolved? m (m.fetchFailure bssid).2 [] := by
    unfold fetchFailure
    split <;> exact .idle rfl
  have hchange (m₁ : Manager) (fqdn : String) (f : Profile → Profile)
      (_ : ∀ q : Profile, q.SameSubscription (f q)) (h : Shows Call.resolved? m m₁ []) :
      Shows Call.resolved? m ({ m₁ with registry := m₁.registry.modify fqdn f }.persist p) [] :=
    Shows.persist (h.congr rfl)
  cases op with
  | add => cases hop
  | importLegacy => cases hop
  | matchAll => cases hop
  | remove uid privileged fqdn => exact shows_remove uid privileged fqdn
  | matchOne ap => exact Shows.matchOne ap (.idle rfl)
  | fetchResult bssid es => exact hresult bssid es
  | fetchFailure bssid => exact hfailure bssid
  | authorizationChanged package => exact shows_authorizationChanged package
  | networkConnected fqdn => exact networkConnected_induction hchange fqdn (.idle rfl)
  | publishMetrics => exact hone _ rfl
  | enableAutoJoin fqdn enabled => exact enableAutoJoin_induction hchange fqdn enabled (.idle rfl)
  | restore s => exact shows_restore s
  | handle event =>
    cases event with
    | fetchResult bssid es => exact hresult bssid es
    | fetchFailure bssid => exact hfailure bssid
    | authorizationChanged package => exact shows_authorizationChanged package
    | networkConnected fqdn => exact networkConnected_induction hchange fqdn (.idle rfl)
  | _ => exact .idle rfl

/-! ### Masked numbers -/

def AsksWhole (m m' : Manager) : Prop :=
  ∃ imsis, Shows Call.resolved? m m' imsis ∧ ∀ imsi ∈ imsis, imsi.toList.getLast? ≠ some '*'

namespace AsksWhole

variable {m₁ m₂ : Manager}

theorem nothing (h : Shows Call.resolved? m m₁ []) : m.AsksWhole m₁ :=
  ⟨[], h, fun _ himsi => nomatch himsi⟩

theorem one {q? : Option Profile} (h : Shows Call.resolved? m m₁ (q?.bind (·.imsi?)).toList) :
    m.AsksWhole m₁ := by
  refine ⟨_, h, fun imsi himsi => ?_⟩
  obtain ⟨q, -, hq⟩ := Option.bind_eq_some_iff.1 (Option.mem_toList.1 himsi)
  exact q.getLast?_of_imsi? hq

theorem trans (h : m.AsksWhole m₁) (h' : m₁.AsksWhole m₂) : m.AsksWhole m₂ := by
  obtain ⟨imsis, hshown, hwhole⟩ := h
  obtain ⟨imsis', hshown', hwhole'⟩ := h'
  refine ⟨imsis ++ imsis', hshown.trans hshown', fun imsi himsi => ?_⟩
  exact (List.mem_append.1 himsi).elim (hwhole imsi) (hwhole' imsi)

theorem matchAll (m : Manager) (p : Platform) (aps : List AccessPoint) :
    m.AsksWhole (m.matchAll p aps).2 := by
  unfold Manager.matchAll
  refine List.foldlRecOn (motive := fun (s : MatchGroups × Manager) => m.AsksWhole s.2) aps _
    (.nothing (.idle rfl)) ?_
  intro s hs ap _
  have hmatched := hs.trans (.nothing (Shows.matchOne (p := p) ap (.idle rfl)))
  refine List.foldlRecOn (motive := fun (s : MatchGroups × Manager) => m.AsksWhole s.2) _ _
    hmatched ?_
  intro s' hs' f _
  dsimp only
  split
  · exact hs'.trans (.one (Shows.refreshCarrier f.profile.fqdn (.idle rfl)))
  · exact hs'

theorem perform (m : Manager) (p : Platform) (op : Operation) : m.AsksWhole (m.perform p op).2 := by
  by_cases hop : op.mayResolve = false
  · exact .nothing (shows_perform_nothing hop)
  · cases op with
    | add config? caller isSuggestion =>
      obtain ⟨q?, hshown⟩ := shows_add (m := m) (p := p) config? caller isSuggestion
      exact .one hshown
    | importLegacy entry =>
      obtain ⟨q?, hshown⟩ := shows_importLegacy (m := m) (p := p) entry
      exact .one hshown
    | matchAll aps => exact matchAll m p aps
    | _ => exact absurd rfl hop

/-- **A masked number is never asked for**, in no run. -/
theorem run (m : Manager) (steps : List Step) : m.AsksWhole (m.run steps) :=
  run_induction (I := m.AsksWhole) (fun m₁ p op h => h.trans (perform m₁ p op)) steps
    (.nothing (.idle rfl))

end AsksWhole

end Manager

end Hotspot
