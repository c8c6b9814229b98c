/-
  Hotspot/Proofs/Runs.lean
  ========================
  **Facts that every run keeps.**

  Of the twenty operations most have no bearing on the profiles and their owners: they are
  `Quiet`, a change of the cache and the requests together with calls of a few kinds.  Of the
  others most only change a profile at a later time of its life and store the change.  What is
  left is installing, importing, removing, a change of authorization and restoring.
  `operation_induction` is the case analysis of an operation that this makes, and
  `run_induction` carries a fact from step to step; `Along` states a condition on the steps of
  a run for facts that need one.
-/
import Hotspot.Proofs.Steps

namespace Hotspot

/-- A call that has no bearing on the profiles, their owners and what is stored of them. -/
def Call.isQuiet : Call → Bool
  | .issueFetch .. => true
  | .resolve .. => true
  | .increment .requestIssued => true
  | .increment .responseDropped => true
  | .recordProfiles .. => true
  | _ => false

namespace Manager

/-! ### Quiet steps -/

/-- `m'` is `m` after quiet calls, with another cache and other requests perhaps. -/
structure Quiet (m m' : Manager) : Prop where
  registry : m'.registry = m.registry
  watches : m'.watches = m.watches
  history : ∃ calls, m'.history = calls ++ m.history ∧ ∀ c ∈ calls, c.isQuiet = true

namespace Quiet

theorem refl (m : Manager) : Quiet m m := ⟨rfl, rfl, [], rfl, fun _ h => nomatch h⟩

theorem record (m : Manager) {c : Call} (h : c.isQuiet = true) : Quiet m (m.record c) := by
  refine ⟨rfl, rfl, [c], rfl, fun c' hc => ?_⟩
  rw [List.mem_singleton.1 hc]
  exact h

theorem trans {m₁ m₂ m₃ : Manager} (h : Quiet m₁ m₂) (h' : Quiet m₂ m₃) : Quiet m₁ m₃ := by
  obtain ⟨calls, hcalls, hquiet⟩ := h.history
  obtain ⟨calls', hcalls', hquiet'⟩ := h'.history
  refine ⟨h'.registry.trans h.registry, h'.watches.trans h.watches, calls' ++ calls, ?_, ?_⟩
  · rw [hcalls', hcalls, List.append_assoc]
  · intro c hc
    rcases List.mem_append.1 hc with hc | hc
    · exact hquiet' c hc
    · exact hquiet c hc

theorem learn (m : Manager) (requests : RequestTracker) (cache : MetadataCache) :
    Quiet m { m with requests, cache } :=
  ⟨rfl, rfl, [], rfl, fun _ h => nomatch h⟩

variable (m : Manager) (p : Platform)

theorem requestFetch (bssid : MacAddress) (key : IdentityKey) (first biased : Bool) :
    Quiet m (m.requestFetch p bssid key first biased).2 := by
  unfold Manager.requestFetch
  split
  · dsimp only
    split
    · exact (record m rfl).trans ((learn _ _ _).trans (record _ rfl))
    · exact record m rfl
  · exact refl _

theorem matchOne (ap : AccessPoint) : Quiet m (m.matchOne p ap).2 := by
  unfold Manager.matchOne
  split
  · exact refl _
  · split
    · exact refl _
    · exact requestFetch ..

theorem sweep : Quiet m (m.sweep p).2 := learn ..

theorem fetchResult (bssid : MacAddress) (es : Anqp.Elements) :
    Quiet m (m.fetchResult p bssid es).2 := by
  unfold Manager.fetchResult
  split
  · exact record _ rfl
  · exact learn ..

theorem fetchFailure (bssid : MacAddress) : Quiet m (m.fetchFailure bssid).2 := by
  unfold Manager.fetchFailure
  split
  · exact refl _
  · exact learn ..

theorem publishMetrics : Quiet m m.publishMetrics.2 := record _ rfl

end Quiet

/-! ### Single operations -/

variable {m : Manager} {p : Platform} {I : Manager → Prop}

theorem refreshCarrier_induction (quiet : ∀ m₁ m₂, Quiet m₁ m₂ → I m₁ → I m₂)
    (change : ∀ m₁ fqdn f, (∀ q : Profile, q.SameSubscription (f q)) → I m₁ →
      I ({ m₁ with registry := m₁.registry.modify fqdn f }.persist p))
    (fqdn : String) (h : I m) : I (m.refreshCarrier p fqdn) := by
  rcases m.refreshCarrier_cases p fqdn with he | ⟨imsi, answer, he⟩ | ⟨imsi, carrierId, he⟩
  · rw [he]
    exact h
  · rw [he]
    exact quiet _ _ (.record m rfl) h
  · rw [he]
    exact change (m.record (.resolve imsi (some carrierId))) fqdn _
      (fun q => .withCarrier q carrierId) (quiet _ _ (.record m rfl) h)

/-- Matching a scan is quiet steps and new carriers, one access point and one match at a
    time. -/
theorem matchAll_induction (quiet : ∀ m₁ m₂, Quiet m₁ m₂ → I m₁ → I m₂)
    (refresh : ∀ m₁ fqdn, I m₁ → I (m₁.refreshCarrier p fqdn))
    (aps : List AccessPoint) (h : I m) : I (m.matchAll p aps).2 := by
  have hgroup : ∀ (ap : AccessPoint) (found : List ProfileMatch) (start : MatchGroups × Manager),
      I start.2 → I (groupMatches p ap found start).2 := by
    intro ap found start hstart
    refine List.foldlRecOn (motive := fun (s : MatchGroups × Manager) => I s.2) found _ hstart ?_
    intro current hcurrent f _
    dsimp only
    split
    · exact refresh _ _ hcurrent
    · exact hcurrent
  refine List.foldlRecOn (motive := fun (s : MatchGroups × Manager) => I s.2) aps _ h ?_
  intro current hcurrent ap _
  exact hgroup ap _ _ (quiet _ _ (.matchOne current.2 p ap) hcurrent)

theorem networkConnected_induction
    (change : ∀ m₁ fqdn f, (∀ q : Profile, q.SameSubscription (f q)) → I m₁ →
      I ({ m₁ with registry := m₁.registry.modify fqdn f }.persist p))
    (fqdn : String) (h : I m) : I (m.networkConnected p fqdn).2 := by
  unfold networkConnected
  split
  · exact h
  · split
    · exact h
    · exact change m fqdn _ (fun q => .hasEverConnected q true) h

theorem enableAutoJoin_induction
    (change : ∀ m₁ fqdn f, (∀ q : Profile, q.SameSubscription (f q)) → I m₁ →
      I ({ m₁ with registry := m₁.registry.modify fqdn f }.persist p))
    (fqdn : String) (enabled : Bool) (h : I m) : I (m.enableAutoJoin p fqdn enabled).2 := by
  unfold enableAutoJoin
  split
  · exact h
  · split
    · exact h
    · exact change m fqdn _ (fun q => .autoJoin q enabled) h

/-- **The cases of an operation**, with what is known in each.  A fact that quiet steps and
    stored changes keep is kept by an operation if it is kept by installing, importing, removing,
    a change of authorization and restoring. -/
theorem operation_induction {op : Operation} (quiet : ∀ m₁ m₂, Quiet m₁ m₂ → I m₁ → I m₂)
    (change : ∀ m₁ fqdn f, (∀ q : Profile, q.SameSubscription (f q)) → I m₁ →
      I ({ m₁ with registry := m₁.registry.modify fqdn f }.persist p))
    (add : ∀ config? caller isSuggestion, op = .add config? caller isSuggestion →
      I (m.add p config? caller isSuggestion).2)
    (importLegacy : ∀ entry, op = .importLegacy entry → I (m.importLegacy p entry).2)
    (remove : ∀ uid privileged fqdn, op = .remove uid privileged fqdn →
      I (m.remove p uid privileged fqdn).2)
    (authorizationChanged : ∀ package,
      op = .authorizationChanged package ∨ op = .handle (.authorizationChanged package) →
      I (m.authorizationChanged p package).2)
    (restore : ∀ s, op = .restore s → I (m.restore s))
    (h : I m) : I (m.perform p op).2 := by
  have connected := fun fqdn => networkConnected_induction change fqdn h
  cases op with
  | add config? caller isSuggestion => exact add _ _ _ rfl
  | importLegacy entry => exact importLegacy _ rfl
  | remove uid privileged fqdn => exact remove _ _ _ rfl
  | list uid privileged => exact h
  | matchOne ap => exact quiet _ _ (.matchOne m p ap) h
  | matchAll aps =>
    exact matchAll_induction quiet (fun _ _ => refreshCarrier_induction quiet change _) aps h
  | cachedMetadata ap => exact h
  | sweep => exact quiet _ _ (.sweep m p) h
  | fetchResult bssid es => exact quiet _ _ (.fetchResult m p bssid es) h
  | fetchFailure bssid => exact quiet _ _ (.fetchFailure m bssid) h
  | authorizationChanged package => exact authorizationChanged package (Or.inl rfl)
  | networkConnected fqdn => exact connected fqdn
  | metrics => exact h
  | publishMetrics => exact quiet _ _ (.publishMetrics m) h
  | enableAutoJoin fqdn enabled => exact enableAutoJoin_induction change fqdn enabled h
  | descriptors fqdns => exact h
  | restore s => exact restore s rfl
  | persistedState => exact h
  | isWatching package => exact h
  | handle event =>
    cases event with
    | fetchResult bssid es => exact quiet _ _ (.fetchResult m p bssid es) h
    | fetchFailure bssid => exact quiet _ _ (.fetchFailure m bssid) h
    | authorizationChanged package => exact authorizationChanged package (Or.inr rfl)
    | networkConnected fqdn => exact connected fqdn

/-- The cases of an operation, for facts that do not depend on who asks for what. -/
theorem perform_induction {op : Operation} (quiet : ∀ m₁ m₂, Quiet m₁ m₂ → I m₁ → I m₂)
    (change : ∀ m₁ fqdn f, (∀ q : Profile, q.SameInstallation (f q)) → I m₁ →
      I ({ m₁ with registry := m₁.registry.modify fqdn f }.persist p))
    (add : ∀ config? caller isSuggestion, op = .add config? caller isSuggestion →
      I (m.add p config? caller isSuggestion).2)
    (importLegacy : ∀ entry, op = .importLegacy entry → I (m.importLegacy p entry).2)
    (remove : ∀ uid privileged fqdn, I (m.remove p uid privileged fqdn).2)
    (authorizationChanged : ∀ package, I (m.authorizationChanged p package).2)
    (restore : ∀ s, op = .restore s → I (m.restore s))
    (h : I m) : I (m.perform p op).2 :=
  operation_induction quiet
    (fun m₁ fqdn f hf => change m₁ fqdn f fun q => (hf q).toSameInstallation) add importLegacy
    (fun uid privileged fqdn _ => remove uid privileged fqdn)
    (fun package _ => authorizationChanged package) restore h

/-! ### Runs -/

theorem run_induction (step : ∀ m₁ p₁ op, I m₁ → I (m₁.perform p₁ op).2) (steps : List Step)
    (h : I m) : I (m.run steps) := by
  induction steps generalizing m with
  | nil => exact h
  | cons s rest ih => exact ih (step m s.1 s.2 h)

/-- Every step of a run satisfies a condition, which may look at the state it is taken in. -/
def Along (ok : Manager → Step → Prop) : Manager → List Step → Prop
  | _, [] => True
  | m, s :: rest => ok m s ∧ Along ok (m.perform s.1 s.2).2 rest

theorem run_append (m : Manager) (before after : List Step) :
    m.run (before ++ after) = (m.run before).run after :=
  List.foldl_append

theorem Along.append_iff {ok : Manager → Step → Prop} {before after : List Step} :
    Along ok m (before ++ after) ↔ Along ok m before ∧ Along ok (m.run before) after := by
  induction before generalizing m with
  | nil => exact ⟨fun h => ⟨trivial, h⟩, And.right⟩
  | cons s rest ih =>
    rw [List.cons_append, Along, ih, Along, and_assoc]
    rfl

/-- A fact that every step of a kind keeps is kept by a run of such steps. -/
theorem Along.run_induction {ok : Manager → Step → Prop} {steps : List Step}
    (hok : Along ok m steps)
    (step : ∀ m₁ p₁ op, ok m₁ (p₁, op) → I m₁ → I (m₁.perform p₁ op).2)
    (h : I m) : I (m.run steps) := by
  induction steps generalizing m with
  | nil => exact h
  | cons s rest ih => exact ih hok.2 (step m s.1 s.2 hok.1 h)

def Reachable (m : Manager) : Prop :=
  ∃ settings matchers steps, m = (new settings matchers).run steps

/-- What holds of every new manager and is kept by every step holds of every reachable
    state. -/
theorem Reachable.induction (hm : m.Reachable) (start : ∀ settings matchers, I (new settings matchers))
    (step : ∀ m₁ p₁ op, I m₁ → I (m₁.perform p₁ op).2) : I m := by
  obtain ⟨settings, matchers, steps, rfl⟩ := hm
  exact run_induction step steps (start settings matchers)

end Manager

end Hotspot
