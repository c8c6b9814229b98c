/-
  Hotspot/Proofs/Frames.lean
  ==========================
  **What the upkeep of profiles leaves alone.**

  Installing, removing and storing profiles has no bearing on what was asked of access points,
  and it starts a watch only for the owner of a profile that it brings in.  A fact that does not
  depend on the registry, nor on the calls such upkeep makes, is `Unmoved`; to see that an
  operation keeps it one only has to look at the traffic with access points and at the watches
  that are started (`Unmoved.perform`).  The steps in between are here, once for all such facts.
-/
import Hotspot.Proofs.Gates
import Hotspot.Proofs.Runs

namespace Hotspot

/-! ### Traffic and watches -/

def Counter.isOfRadio : Counter → Bool
  | .requestIssued => true
  | .responseDropped => true
  | _ => false

/-- A call that asks no access point, counts no such traffic and starts no watch. -/
def Call.isUpkeep : Call → Bool
  | .issueFetch .. => false
  | .increment c => !c.isOfRadio
  | .startWatching _ => false
  | _ => true

/-- An operation that asks access points for metadata, or takes or forgets what they said. -/
def Operation.isOfRadio : Operation → Bool
  | .matchOne _ => true
  | .matchAll _ => true
  | .sweep => true
  | .fetchResult .. => true
  | .fetchFailure _ => true
  | .handle (.fetchResult ..) => true
  | .handle (.fetchFailure _) => true
  | _ => false

/-- An operation that brings in a profile of an application, installed for the user: it installs
    one, imports one or restores one. -/
def Operation.BringsIn (app : AppIdentity) : Operation → Prop
  | .add _ caller isSuggestion => isSuggestion = false ∧ caller = app
  | .importLegacy entry => entry.creator = app
  | .restore s => ∃ q ∈ s.profiles, q.isSaved = true ∧ q.owner = app
  | _ => False

/-- An operation that may start to watch an application: one that brings in a profile of it,
    except that an imported one must name its package. -/
def Operation.MayWatch (op : Operation) (app : AppIdentity) : Prop :=
  op.BringsIn app ∧ ∀ entry, op = .importLegacy entry → app.package ≠ ""

/-- An application owns a profile that was installed for the user. -/
def Registry.HasSavedOf (r : Registry) (app : AppIdentity) : Prop :=
  ∃ q ∈ r.profiles.values, q.isSaved = true ∧ q.owner = app

/-- A request is for a profile of the application that makes it, installed for the user unless it
    is a suggestion. -/
theorem InstallRequest.of_profile? {r : InstallRequest} {m : Manager} {q : Profile}
    (hq : r.profile? m = some q) :
    r.config? = some q.config ∧ q.owner = r.caller ∧ q.isSaved = !r.isSuggestion := by
  unfold profile? at hq
  split at hq
  · cases hq
  · rename_i config hconfig
    split at hq
    · cases hq
    · obtain rfl := Option.some.inj hq
      refine ⟨hconfig, rfl, ?_⟩
      cases r.isSuggestion <;> rfl

namespace Manager

/-- A step brings in a profile of an application, installed for the user: its operation is one
    that does, it succeeds, and the application owns such a profile afterwards. -/
def BringsIn (m : Manager) (s : Step) (app : AppIdentity) : Prop :=
  s.2.BringsIn app ∧ (m.perform s.1 s.2).1 = .done ∧
    (m.perform s.1 s.2).2.registry.HasSavedOf app

theorem hasSavedOf_enter (m : Manager) (p : Platform) {q : Profile} (hq : q.isSaved = true)
    (watch : Bool) : (m.enter p q watch).registry.HasSavedOf q.owner := by
  have hinsert : (m.registry.insert q).get? q.fqdn = some q := by
    rw [Registry.get?_insert, if_pos rfl]
  obtain ⟨q', hget, hsame⟩ := (stays_enter m p q watch).kept _ _ hinsert
  exact ⟨q', Registry.mem_values_iff.2 ⟨_, hget⟩, hsame.isSaved.trans hq, hsame.owner⟩

/-! ### Facts that upkeep keeps -/

/-- A fact that neither the registry nor the calls of its upkeep have a bearing on. -/
structure Unmoved (I : Manager → Prop) : Prop where
  registry : ∀ m r, I m → I { m with registry := r }
  call : ∀ m c, c.isUpkeep = true → I m → I (m.record c)
  stop : ∀ m package, I m → I (m.stopWatching package)

namespace Unmoved

variable {I : Manager → Prop} (h : Unmoved I) {m : Manager} {p : Platform}
include h

/-! #### Steps -/

theorem calls {cs : List Call} (hcs : ∀ c ∈ cs, c.isUpkeep = true) (hm : I m) :
    I { m with history := cs ++ m.history } := by
  induction cs with
  | nil => exact hm
  | cons c rest ih =>
    have hrest := ih fun c' hc => hcs c' (List.mem_cons_of_mem _ hc)
    exact h.call _ c (hcs c List.mem_cons_self) hrest

theorem persist (hm : I m) : I (m.persist p) := h.call _ _ rfl hm

/-- A change that is stored at once. -/
theorem change (r : Registry) (hm : I m) : I ({ m with registry := r }.persist p) :=
  h.persist (h.registry _ r hm)

theorem retire (q : Profile) (hm : I m) : I (m.retire p q) :=
  h.call _ _ rfl (h.call _ _ rfl hm)

theorem retireReplaced (q : Profile) (old : Option Profile) (hm : I m) :
    I (m.retireReplaced p q old) := by
  unfold Manager.retireReplaced
  split
  · exact hm
  · split
    · exact h.call _ _ rfl hm
    · exact h.call _ _ rfl (h.call _ _ rfl hm)

theorem releaseOwner (gone : Profile) (hm : I m) : I (m.releaseOwner gone) := by
  unfold Manager.releaseOwner
  split
  · exact h.stop _ _ hm
  · exact hm

theorem releaseReplaced (old : Option Profile) (hm : I m) : I (m.releaseReplaced old) := by
  cases old with
  | none => exact hm
  | some old => exact h.releaseOwner old hm

theorem refreshCarrier (fqdn : String) (hm : I m) : I (m.refreshCarrier p fqdn) := by
  rcases m.refreshCarrier_cases p fqdn with he | ⟨imsi, answer, he⟩ | ⟨imsi, carrierId, he⟩ <;>
    rw [he]
  · exact hm
  · exact h.call _ _ rfl hm
  · exact h.persist (h.registry _ _ (h.call _ _ rfl hm))

theorem groupMatches (ap : AccessPoint) (found : List ProfileMatch) (start : MatchGroups × Manager)
    (hm : I start.2) : I (Manager.groupMatches p ap found start).2 := by
  refine List.foldlRecOn (motive := fun (s : MatchGroups × Manager) => I s.2) found _ hm ?_
  intro current hcurrent f _
  dsimp only
  split
  · exact h.refreshCarrier _ hcurrent
  · exact hcurrent

theorem commit (q : Profile) (hm : I m) : I (m.commit p q) :=
  h.refreshCarrier _ (h.releaseReplaced _ (h.persist (h.retireReplaced q _ (h.registry _ _ hm))))

theorem enter (q : Profile) {watch : Bool}
    (start : watch = true → ∀ m₁, I m₁ → I (m₁.startWatching q.owner)) (hm : I m) :
    I (m.enter p q watch) := by
  unfold Manager.enter
  cases watch with
  | false => exact h.call _ _ rfl (h.commit q hm)
  | true => exact h.call _ _ rfl (start rfl _ (h.commit q hm))

theorem removeSavedBy (package : String) (hm : I m) : I (m.removeSavedBy p package).2 := by
  have hretired : ∀ removed : List Profile, ∀ m₁, I m₁ →
      I (removed.foldl (fun m q => m.retireCounted p q) m₁) := by
    intro removed m₁ hm₁
    refine List.foldlRecOn (motive := I) removed _ hm₁ ?_
    intro m₂ hm₂ q _
    exact h.call _ _ rfl (h.retire q (h.call _ _ rfl hm₂))
  unfold Manager.removeSavedBy
  dsimp only
  split
  · exact hretired _ _ (h.registry _ _ hm)
  · exact h.persist (hretired _ _ (h.registry _ _ hm))

theorem disconnectFrom (domain : Option String) (removed : List Profile) (hm : I m) :
    I (m.disconnectFrom domain removed) := by
  unfold Manager.disconnectFrom
  split
  · exact hm
  · split
    · exact h.call _ _ rfl hm
    · exact hm

/-! #### Operations -/

theorem refused (r : InstallRequest) (g : Gate) (hm : I m) : I (r.refused m p g) := by
  have hcalls : ∀ c ∈ (r.callsThrough m p g).reverse, c.isUpkeep = true := by
    intro c hc
    rcases r.mem_callsThrough (List.mem_reverse.1 hc) with rfl | ⟨ca, failure, rfl⟩ |
      ⟨q, failure, rfl⟩ <;> rfl
  exact h.registry _ _ (h.calls hcalls hm)

theorem remove (uid : UInt32) (privileged : Bool) (fqdn : String) (hm : I m) :
    I (m.remove p uid privileged fqdn).2 := by
  have hattempted : I (m.increment .uninstallAttempted) := h.call _ _ rfl hm
  rcases m.remove_cases p uid privileged fqdn with ⟨e, he⟩ | ⟨q, -, -, he⟩ <;> rw [he]
  · exact hattempted
  · exact h.call _ _ rfl (h.releaseOwner q (h.persist (h.retire q (h.registry _ _ hattempted))))

theorem authorizationChanged (package : String) (hm : I m) :
    I (m.authorizationChanged p package).2 := by
  rcases m.authorizationChanged_cases p package with ⟨-, he⟩ | ⟨uid, -, ⟨-, he⟩ | ⟨-, he⟩⟩ <;>
    rw [he]
  · exact hm
  · exact h.call _ _ rfl hm
  · have hasked := h.call _ (.isAuthorized { uid, package } false) rfl hm
    exact h.disconnectFrom _ _ (h.stop _ _ (h.removeSavedBy package (h.call _ _ rfl hasked)))

theorem networkConnected (fqdn : String) (hm : I m) : I (m.networkConnected p fqdn).2 :=
  networkConnected_induction (fun _ _ _ _ hm₁ => h.change _ hm₁) fqdn hm

theorem restore (s : PersistedState)
    (start : ∀ m₁ app, (Operation.restore s).MayWatch app → m.BringsIn (p, .restore s) app →
      I m₁ → I (m₁.startWatching app)) (hm : I m) :
    I (m.restore s) := by
  have hstopped : ∀ packages : List String,
      I (packages.foldl stopWatching { m with registry := m.registry.restore s }) := by
    intro packages
    refine List.foldlRecOn (motive := I) packages _ (h.registry _ _ hm) ?_
    intro m₁ hm₁ package _
    exact h.stop _ _ hm₁
  have hregistry : (m.perform p (.restore s)).2.registry = m.registry.restore s :=
    restore_registry m s
  unfold Manager.restore
  refine List.foldlRecOn (motive := I) _ _ (hstopped _) ?_
  intro m₁ hm₁ q hq
  rw [foldl_stopWatching_registry] at hq
  obtain ⟨hmem, hsaved⟩ := List.mem_filter.1 hq
  obtain ⟨fqdn, hget⟩ := Registry.mem_values_iff.1 hmem
  have hbrings : (Operation.restore s).BringsIn q.owner :=
    ⟨q, (Registry.get?_restore hget).1, hsaved, rfl⟩
  have howns : (m.perform p (.restore s)).2.registry.HasSavedOf q.owner :=
    hregistry ▸ ⟨q, hmem, hsaved, rfl⟩
  exact start m₁ q.owner ⟨hbrings, fun _ h => nomatch h⟩ ⟨hbrings, rfl, howns⟩ hm₁

/-- **What upkeep keeps, an operation keeps**, if it is no traffic with access points, and
    starting the watches that it may start keeps it too.  Such a watch is of an application
    that the operation brings in a profile of. -/
theorem perform {op : Operation}
    (start : ∀ m₁ app, op.MayWatch app → m.BringsIn (p, op) app → I m₁ →
      I (m₁.startWatching app))
    (radio : op.isOfRadio = true → I (m.perform p op).2) (hm : I m) : I (m.perform p op).2 := by
  cases op with
  | add config? caller isSuggestion =>
    refine request_induction { config?, caller, isSuggestion } (fun g => h.refused _ g hm) ?_
    intro q hq _ hadd
    obtain ⟨-, howner, hsaved⟩ := InstallRequest.of_profile? hq
    have haccepted : I (InstallRequest.accepted { config?, caller, isSuggestion } m p) :=
      h.refused _ .install hm
    refine h.enter q (fun hwatch m₁ hm₁ => ?_) haccepted
    have hafter : m.perform p (.add config? caller isSuggestion) =
        (.done, (InstallRequest.accepted { config?, caller, isSuggestion } m p).enter p q
          q.isSaved) :=
      congrArg (Prod.map Reply.ofResult id) hadd
    have hbrings : (Operation.add config? caller isSuggestion).BringsIn q.owner := by
      refine ⟨?_, howner.symm⟩
      rw [hsaved, Bool.not_eq_true'] at hwatch
      exact hwatch
    refine start m₁ q.owner ⟨hbrings, fun _ h => nomatch h⟩ ⟨hbrings, ?_, ?_⟩ hm₁
    · rw [hafter]
    · rw [hafter]
      exact hasSavedOf_enter _ p hwatch _
  | importLegacy entry =>
    have hattempted : I (m.increment .installAttempted) := h.call _ _ rfl hm
    have hperform : m.perform p (.importLegacy entry) =
        (m.importLegacy p entry).map .ofResult id := rfl
    rcases m.importLegacy_cases p entry with ⟨e, he⟩ | ⟨q, -, howner, hsaved, he⟩ <;>
      rw [he] at hperform
    · rw [hperform]
      exact hattempted
    · have hbrings : m.BringsIn (p, .importLegacy entry) q.owner := by
        refine ⟨howner.symm, ?_, ?_⟩
        · rw [hperform]
          rfl
        · rw [hperform]
          exact hasSavedOf_enter _ p hsaved _
      rw [hperform]
      refine h.enter q (fun hwatch m₁ hm₁ => ?_) (h.registry _ _ hattempted)
      exact start m₁ q.owner ⟨howner.symm, fun _ _ => of_decide_eq_true hwatch⟩ hbrings hm₁
  | remove uid privileged fqdn => exact h.remove uid privileged fqdn hm
  | authorizationChanged package => exact h.authorizationChanged package hm
  | networkConnected fqdn => exact h.networkConnected fqdn hm
  | publishMetrics => exact h.call _ _ rfl hm
  | enableAutoJoin fqdn enabled =>
    exact enableAutoJoin_induction (fun _ _ _ _ hm₁ => h.change _ hm₁) fqdn enabled hm
  | restore s => exact h.restore (p := p) s start hm
  | handle event =>
    cases event with
    | fetchResult bssid es => exact radio rfl
    | fetchFailure bssid => exact radio rfl
    | authorizationChanged package => exact h.authorizationChanged package hm
    | networkConnected fqdn => exact h.networkConnected fqdn hm
  | matchOne ap => exact radio rfl
  | matchAll aps => exact radio rfl
  | sweep => exact radio rfl
  | fetchResult bssid es => exact radio rfl
  | fetchFailure bssid => exact radio rfl
  | list uid privileged => exact hm
  | cachedMetadata ap => exact hm
  | metrics => exact hm
  | descriptors fqdns => exact hm
  | persistedState => exact hm
  | isWatching package => exact hm

/-- The same for facts that traffic with access points has no bearing on either. -/
theorem perform_of_quiet {op : Operation} (quiet : ∀ m₁ m₂, Quiet m₁ m₂ → I m₁ → I m₂)
    (start : ∀ m₁ app, op.MayWatch app → m.BringsIn (p, op) app → I m₁ →
      I (m₁.startWatching app)) (hm : I m) : I (m.perform p op).2 := by
  refine h.perform start (fun hradio => ?_) hm
  cases op with
  | matchOne ap => exact quiet _ _ (.matchOne m p ap) hm
  | matchAll aps => exact matchAll_induction quiet (fun _ _ => h.refreshCarrier _) aps hm
  | sweep => exact quiet _ _ (.sweep m p) hm
  | fetchResult bssid es => exact quiet _ _ (.fetchResult m p bssid es) hm
  | fetchFailure bssid => exact quiet _ _ (.fetchFailure m bssid) hm
  | handle event =>
    cases event with
    | fetchResult bssid es => exact quiet _ _ (.fetchResult m p bssid es) hm
    | fetchFailure bssid => exact quiet _ _ (.fetchFailure m bssid) hm
    | _ => cases hradio
  | _ => cases hradio

end Unmoved

/-- The calls of upkeep are calls of upkeep. -/
theorem unmoved_calls (m : Manager) :
    Unmoved fun m' => ∃ cs, m'.history = cs ++ m.history ∧ ∀ c ∈ cs, c.isUpkeep = true where
  registry _ _ hm := hm
  call := by
    rintro m' c hc ⟨cs, hhistory, hcs⟩
    refine ⟨c :: cs, congrArg (c :: ·) hhistory, fun c' hc' => ?_⟩
    rcases List.mem_cons.1 hc' with rfl | hrest
    · exact hc
    · exact hcs c' hrest
  stop := by
    rintro m' package ⟨cs, hhistory, hcs⟩
    unfold stopWatching
    split
    · exact ⟨cs, hhistory, hcs⟩
    · rename_i uid _
      refine ⟨.stopWatching ⟨uid, package⟩ :: cs, congrArg (_ :: ·) hhistory, fun c hc => ?_⟩
      rcases List.mem_cons.1 hc with rfl | hrest
      · rfl
      · exact hcs c hrest

end Manager

end Hotspot
