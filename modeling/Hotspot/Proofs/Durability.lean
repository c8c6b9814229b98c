/-
  Hotspot/Proofs/Durability.lean
  ==============================
  **What is stored is what is there.**

  The registry is stored after every change of a profile, if the platform can store it.  An
  operation may change and store it several times; what matters to a manager that starts anew
  is the last time.  That this is the registry the operation ends with holds of each act of an
  operation, and therefore of the operation (`Acts.accounted`).

  A new manager that takes over the stored state is where the old one was: it has the same
  profiles under the same numbers, and watches the same packages.
-/
import Hotspot.Proofs.Numbering
import Hotspot.Proofs.Watching

namespace Hotspot

theorem Call.stored?_of_isPlain {c : Call} (h : c.isPlain = true) : c.stored? = none := by
  cases c with
  | persist => cases h
  | _ => rfl

namespace Manager

variable {b b' b'' : Bool} {m m₁ m₂ m' m'' : Manager} {p : Platform}

/-! ### Settled registries -/

/-- Between `m` and `m'`, when the registry is settled after: either nothing was stored and
    nothing needed to be, or the last thing stored is the registry. -/
def Accounted (b b' : Bool) (m m' : Manager) : Prop :=
  ∃ calls, m'.history = calls ++ m.history ∧ (b' = true →
    (b = true ∧ m'.registry = m.registry ∧ calls.filterMap Call.stored? = []) ∨
      (calls.filterMap Call.stored?).head? = some m'.registry.toState)

/-- Calls that store nothing leave the account as it is. -/
theorem Accounted.extend (h : Accounted b b' m m₁) (calls : List Call)
    (hhistory : m₂.history = calls ++ m₁.history) (hregistry : m₂.registry = m₁.registry)
    (hnothing : ∀ c ∈ calls, c.stored? = none) : Accounted b b' m m₂ := by
  obtain ⟨earlier, hearlier, hsettled⟩ := h
  refine ⟨calls ++ earlier, ?_, fun hb => ?_⟩
  · rw [hhistory, hearlier, List.append_assoc]
  · have hnil : calls.filterMap Call.stored? = [] := List.filterMap_eq_nil_iff.2 hnothing
    rw [hregistry, List.filterMap_append, hnil, List.nil_append]
    exact hsettled hb

theorem Accounted.call (h : Accounted b b' m m₁) {c : Call} (hc : c.stored? = none)
    (hhistory : m₂.history = c :: m₁.history) (hregistry : m₂.registry = m₁.registry) :
    Accounted b b' m m₂ := by
  apply h.extend [c] hhistory hregistry
  intro c' hc'
  rw [List.mem_singleton.1 hc']
  exact hc

/-- **Acts account for what is stored.**  The induction is on the acts: only storing settles
    the registry, and only a change unsettles it. -/
theorem Acts.accounted (acts : Acts b m b' m') : Accounted b b' m m' := by
  induction acts with
  | none => exact ⟨[], rfl, fun hb => Or.inl ⟨hb, rfl, rfl⟩⟩
  | call c plain _ ih => exact ih.call (Call.stored?_of_isPlain plain) rfl rfl
  | persist p _ ih =>
    obtain ⟨earlier, hearlier, -⟩ := ih
    refine ⟨_ :: earlier, congrArg (List.cons _) hearlier, fun _ => Or.inr ?_⟩
    rfl
  | startWatching app _ ih =>
    unfold Manager.startWatching
    split
    · exact ih
    · exact ih.call (c := .startWatching app) rfl rfl rfl
  | stopWatching package _ ih =>
    unfold Manager.stopWatching
    split
    · exact ih
    · rename_i uid _
      exact ih.call (c := .stopWatching { uid, package }) rfl rfl rfl
  | setRegistry r _ ih =>
    obtain ⟨earlier, hearlier, -⟩ := ih
    refine ⟨earlier, hearlier, fun hb => ?_⟩
    cases hb
  | quiet hq _ ih =>
    obtain ⟨calls, hcalls, hquiet⟩ := hq.history
    apply ih.extend calls hcalls hq.registry
    intro c hc
    exact Call.stored?_of_isPlain (Call.isPlain_of_isQuiet (hquiet c hc))

/-- A registry that is settled before and after is the same and was not stored, or was stored
    last. -/
theorem Acts.same_or_stored (acts : Acts true m true m') :
    (m'.registry = m.registry ∧
      (callsSince m.history m'.history).filterMap Call.stored? = []) ∨
    ((callsSince m.history m'.history).filterMap Call.stored?).getLast? =
      some m'.registry.toState := by
  obtain ⟨calls, hcalls, hsettled⟩ := acts.accounted
  rw [hcalls, callsSince_append, List.filterMap_reverse, List.getLast?_reverse,
    List.reverse_eq_nil_iff]
  exact (hsettled rfl).imp And.right id

theorem Acts.stored_last (acts : Acts true m true m')
    (hchanged : m'.registry.profiles ≠ m.registry.profiles) :
    ((callsSince m.history m'.history).filterMap Call.stored?).getLast? =
      some m'.registry.toState := by
  refine acts.same_or_stored.resolve_left ?_
  rintro ⟨hsame, -⟩
  rw [hsame] at hchanged
  exact hchanged rfl

/-! ### Reports in a row -/

theorem Acts.trans (h : Acts b m b' m') (h' : Acts b' m' b'' m'') : Acts b m b'' m'' := by
  induction h' with
  | none => exact h
  | call c plain _ ih => exact (ih h).call c plain
  | persist p _ ih => exact (ih h).persist p
  | startWatching app _ ih => exact (ih h).startWatching app
  | stopWatching package _ ih => exact (ih h).stopWatching package
  | setRegistry r _ ih => exact (ih h).setRegistry r
  | quiet hq _ ih => exact (ih h).quiet hq

theorem settled_handle (m : Manager) (p : Platform) (event : Event) :
    Acts true m true (m.handle p event) := by
  cases event with
  | fetchResult bssid es => exact Acts.none.quiet (.fetchResult m p bssid es)
  | fetchFailure bssid => exact Acts.none.quiet (.fetchFailure m bssid)
  | authorizationChanged package => exact settled_authorizationChanged m p package
  | networkConnected fqdn =>
    apply networkConnected_induction (I := fun m' => Acts true m true m')
    · intro m₁ fqdn' f _ h
      exact h.change _
    · exact .none

theorem settled_handleAll (p : Platform) (events : List Event) :
    Acts true m true (m.handleAll p events) := by
  induction events generalizing m with
  | nil => exact .none
  | cons event rest ih => exact (settled_handle m p event).trans ih

/-! ### Starting anew -/

/-- The manager that starts with what another one has stored. -/
def recovered (settings : Settings) (matchers : Matchers) (m : Manager) : Manager :=
  (new settings matchers).restore m.registry.toState

theorem recovered_registry (settings : Settings) (matchers : Matchers)
    (hkeyed : m.registry.Keyed) (hnumbered : m.registry.Numbered) :
    (recovered settings matchers m).registry = m.registry := by
  unfold recovered
  rw [restore_registry]
  exact Registry.restore_toState hkeyed hnumbered

/-- What is watched follows from what is owned, in the old manager as in the new one. -/
theorem isWatching_recovered (settings : Settings) (matchers : Matchers)
    (hregistry : (recovered settings matchers m).registry = m.registry)
    (howners : WatchesOwners m) {package : String} (hne : package ≠ "") :
    (recovered settings matchers m).isWatching package = m.isWatching package := by
  unfold recovered at hregistry ⊢
  rw [restore_registry] at hregistry
  rw [isWatching_restore, hregistry, Bool.eq_iff_iff]
  constructor
  · exact howners.watched_of_owner package hne
  · exact howners.owner_of_watched package

/-- **Changes are stored, and what is stored can be started from.**  An operation or a batch of
    reports that changes a profile stores, and stores last, the registry it ends with.  After a
    run in which no profile gets the largest number, a new manager that takes over the stored
    state stores the same state and watches the same packages. -/
theorem changes_are_stored_and_recovered :
    (∀ (m : Manager) (p : Platform) (op : Operation), (∀ s, op ≠ .restore s) →
      let m' := (m.perform p op).2
      m'.registry.profiles ≠ m.registry.profiles →
        ((callsSince m.history m'.history).filterMap Call.stored?).getLast? =
          some m'.registry.toState) ∧
    (∀ (m : Manager) (p : Platform) (q : EventQueue),
      let m' := (m.drain p q).2.1
      m'.registry.profiles ≠ m.registry.profiles →
        ((callsSince m.history m'.history).filterMap Call.stored?).getLast? =
          some m'.registry.toState) ∧
    (∀ settings matchers steps, Along NumbersLast (new settings matchers) steps →
      let m := (new settings matchers).run steps
      ∀ settings' matchers',
        (recovered settings' matchers' m).registry.toState = m.registry.toState ∧
        ∀ package, package ≠ "" →
          (recovered settings' matchers' m).isWatching package = m.isWatching package) := by
  refine ⟨?_, ?_, ?_⟩
  · intro m p op hop m' hchanged
    rcases settled_perform m p hop with hsettled | hsame
    · exact hsettled.stored_last hchanged
    · exact absurd hsame hchanged
  · intro m p q m' hchanged
    exact (settled_handleAll p q.events).stored_last hchanged
  · intro settings matchers steps hlast m settings' matchers'
    have hm : m.Reachable := ⟨settings, matchers, steps, rfl⟩
    have hnumbered : m.registry.Numbered := numbered_run hlast Registry.numbered_empty
    have hregistry := recovered_registry settings' matchers' (keyed_of_reachable hm) hnumbered
    refine ⟨congrArg Registry.toState hregistry, fun package hne => ?_⟩
    exact isWatching_recovered settings' matchers' hregistry (watchesOwners_of_reachable hm) hne

theorem changes_are_stored_and_recovered_takeover :
    let m := (new .default .default).run takeover
    let p := Platform.failing (some "home.example")
    let m' := (m.perform p (.networkConnected "home.example")).2
    m'.registry.profiles ≠ m.registry.profiles ∧
      ((callsSince m.history m'.history).filterMap Call.stored?).getLast? =
        some m'.registry.toState ∧
      (recovered .default .default m).registry.toState = m.registry.toState ∧
      (recovered .default .default m).isWatching "mail" = m.isWatching "mail" := by
  intro m p m'
  obtain ⟨hstored, -, hrecovered⟩ := changes_are_stored_and_recovered
  have hchanged : m'.registry.profiles ≠ m.registry.profiles := by decide
  have hlast : Along NumbersLast (new .default .default) takeover :=
    ⟨fun h => absurd h (by decide), fun h => absurd h (by decide), trivial⟩
  obtain ⟨hstate, hwatches⟩ := hrecovered .default .default takeover hlast .default .default
  refine ⟨hchanged, hstored m p (.networkConnected "home.example") (fun _ h => nomatch h) hchanged,
    hstate, hwatches "mail" (by decide)⟩

end Manager

end Hotspot
