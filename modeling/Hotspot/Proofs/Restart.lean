/-
  Hotspot/Proofs/Restart.lean
  ===========================
  **Numbers after a restart.**

  A manager that stops is followed by one that takes over what was saved last.  Whenever an
  installation succeeds the registry is saved after it, and the next number with it, so the new
  manager gives none of the numbers of these installations again.

  An installation that fails uses up a number as well, but nothing is saved then.  If the manager
  stops before it saves for another reason, the number is given a second time.
-/
import Hotspot.Proofs.Freshness

namespace Hotspot

/-! ### What was saved -/

def Call.saved? : Call → Option PersistedState
  | .persist _ s none => some s
  | _ => none

/-- A state that was saved was to be stored. -/
theorem Call.deed?_of_saved? {c : Call} {s : PersistedState} (h : c.saved? = some s) :
    c.deed? = some (.store s) := by
  cases c with
  | persist immediate state failure =>
    cases failure with
    | none => exact congrArg (Option.map Deed.store) h
    | some e => cases h
  | _ => cases h

theorem Call.saved?_eq_none {c : Call} (h : ∀ s, c.deed? ≠ some (.store s)) :
    c.saved? = none := by
  rw [Option.eq_none_iff_forall_ne_some]
  intro s hs
  exact h s (Call.deed?_of_saved? hs)

namespace History

def lastSaved (h : History) (start : PersistedState) : PersistedState :=
  (h.filterMap Call.saved?).head?.getD start

def unsaved (h : History) : History := h.takeWhile fun c => c.saved?.isNone

def SavesSucceed (h : History) : Prop :=
  ∀ immediate state failure, Call.persist immediate state failure ∈ h → failure = none

theorem SavesSucceed.of_append {calls h : History} (hs : SavesSucceed (calls ++ h)) :
    h.SavesSucceed := fun i s f hc => hs i s f (List.mem_append_right calls hc)

theorem SavesSucceed.saved?_of_deed? {h : History} (hs : h.SavesSucceed) {c : Call}
    {s : PersistedState} (hc : c ∈ h) (hd : c.deed? = some (.store s)) : c.saved? = some s := by
  cases c with
  | persist immediate state failure =>
    cases hd
    rw [hs immediate _ failure hc]
    rfl
  | _ => cases hd

theorem savesSucceed_of_saved? {h : History} (hs : ∀ c ∈ h, c.saved? = c.stored?) :
    h.SavesSucceed := by
  intro immediate state failure hc
  have hsaved := hs _ hc
  cases failure with
  | none => rfl
  | some e => cases hsaved

theorem lastSaved_of_quiet {calls : History} (hquiet : ∀ c ∈ calls, c.saved? = none)
    (h : History) (start : PersistedState) : lastSaved (calls ++ h) start = h.lastSaved start := by
  have hnil : calls.filterMap Call.saved? = [] := List.filterMap_eq_nil_iff.2 hquiet
  rw [lastSaved, List.filterMap_append, hnil, List.nil_append, lastSaved]

theorem unsaved_of_quiet {calls : History} (hquiet : ∀ c ∈ calls, c.saved? = none)
    (h : History) : unsaved (calls ++ h) = calls ++ h.unsaved := by
  apply List.takeWhile_append_of_pos
  intro c hc
  rw [hquiet c hc]
  rfl

theorem lastSaved_mem {calls : History} {c : Call} {s : PersistedState} (hc : c ∈ calls)
    (hs : c.saved? = some s) (h : History) (start : PersistedState) :
    ∃ c' ∈ calls, c'.saved? = some (lastSaved (calls ++ h) start) := by
  have hmem : s ∈ calls.filterMap Call.saved? := List.mem_filterMap.2 ⟨c, hc, hs⟩
  cases hsaved : calls.filterMap Call.saved? with
  | nil =>
    rw [hsaved] at hmem
    cases hmem
  | cons first rest =>
    have hlast : lastSaved (calls ++ h) start = first := by
      rw [lastSaved, List.filterMap_append, hsaved]
      rfl
    have hfirst : first ∈ calls.filterMap Call.saved? := hsaved ▸ List.mem_cons_self
    rw [hlast]
    exact List.mem_filterMap.1 hfirst

end History

namespace Manager

variable {m m' : Manager} {p : Platform} {op : Operation} {s : PersistedState}

/-! ### Starting -/

/-- A new manager that has taken over a stored state. -/
def startedFrom (settings : Settings) (matchers : Matchers) (s : PersistedState) : Manager :=
  (new settings matchers).restore s

theorem startedFrom_registry (settings : Settings) (matchers : Matchers) (s : PersistedState) :
    (startedFrom settings matchers s).registry = Registry.empty.restore s :=
  restore_registry _ s

theorem nextIndex_le_startedFrom (settings : Settings) (matchers : Matchers)
    (s : PersistedState) :
    s.nextIndex ≤ (startedFrom settings matchers s).registry.nextIndex := by
  rw [startedFrom_registry]
  exact Registry.nextIndex_le_restore_of_state _ s

/-! ### Steps -/

/-- What the numbers of a manager have to do with what it saved: a number that was handed to the
    secure store is below the next number that was saved, unless the store did not take it and
    nothing was saved since. -/
structure Backed (start : PersistedState) (m : Manager) : Prop where
  saved : (m.history.lastSaved start).nextIndex ≤ m.registry.nextIndex
  given : ∀ q failure, .install q failure ∈ m.history → q.index < m.registry.nextIndex
  backed : ∀ q failure, .install q failure ∈ m.history →
    q.index < (m.history.lastSaved start).nextIndex ∨
      (failure ≠ none ∧ .install q failure ∈ m.history.unsaved)

/-- When nothing is saved, a new number is one that the secure store did not take. -/
theorem Backed.unsaved {start : PersistedState} {calls : List Call} (h : m.Backed start)
    (hcalls : m'.history = calls ++ m.history)
    (hle : m.registry.nextIndex ≤ m'.registry.nextIndex)
    (hquiet : ∀ c ∈ calls, c.saved? = none)
    (hinstall : ∀ q failure, .install q failure ∈ calls →
      q.index < m'.registry.nextIndex ∧ failure ≠ none) : m'.Backed start := by
  constructor
  case saved =>
    rw [hcalls, History.lastSaved_of_quiet hquiet]
    exact UInt64.le_trans h.saved hle
  case given =>
    rw [hcalls]
    intro q failure hq
    rcases List.mem_append.1 hq with hq | hq
    · exact (hinstall q failure hq).1
    · exact UInt64.lt_of_lt_of_le (h.given q failure hq) hle
  case backed =>
    rw [hcalls, History.lastSaved_of_quiet hquiet, History.unsaved_of_quiet hquiet]
    intro q failure hq
    rcases List.mem_append.1 hq with hq | hq
    · exact Or.inr ⟨(hinstall q failure hq).2, List.mem_append_left _ hq⟩
    · rcases h.backed q failure hq with hbelow | ⟨hfailed, hunsaved⟩
      · exact Or.inl hbelow
      · exact Or.inr ⟨hfailed, List.mem_append_right _ hunsaved⟩

/-- When something is saved, all numbers are below the next one that was saved last. -/
theorem Backed.saving {start s : PersistedState} {calls : List Call} {c : Call}
    (h : m.Backed start) (hcalls : m'.history = calls ++ m.history)
    (hle : m.registry.nextIndex ≤ m'.registry.nextIndex) (hc : c ∈ calls)
    (hs : c.saved? = some s)
    (hcurrent : ∀ c ∈ calls, ∀ s, c.saved? = some s → s.nextIndex = m'.registry.nextIndex)
    (hinstall : ∀ q failure, .install q failure ∈ calls → q.index < m'.registry.nextIndex) :
    m'.Backed start := by
  have hgiven : ∀ q failure, .install q failure ∈ m'.history →
      q.index < m'.registry.nextIndex := by
    rw [hcalls]
    intro q failure hq
    rcases List.mem_append.1 hq with hq | hq
    · exact hinstall q failure hq
    · exact UInt64.lt_of_lt_of_le (h.given q failure hq) hle
  have hnext : (m'.history.lastSaved start).nextIndex = m'.registry.nextIndex := by
    obtain ⟨last, hlast, hlastSaved⟩ := History.lastSaved_mem hc hs m.history start
    rw [hcalls]
    exact hcurrent last hlast _ hlastSaved
  constructor
  case saved => exact hnext ▸ UInt64.le_refl _
  case given => exact hgiven
  case backed =>
    intro q failure hq
    exact Or.inl (hnext ▸ hgiven q failure hq)

/-- An operation keeps this if whatever it stores has the next number that it ends with, and a
    credential that it installs does not go without. -/
theorem Backed.extend {start : PersistedState} {ds : List Deed} (h : m.Backed start)
    (hdoes : m.Does m' ds) (hle : m.registry.nextIndex ≤ m'.registry.nextIndex)
    (hinstall : ∀ q b, .install q b ∈ ds → q.index < m'.registry.nextIndex)
    (hstore : ∀ s, .store s ∈ ds → s.nextIndex = m'.registry.nextIndex)
    (hnone : (∀ s, .store s ∉ ds) → ∀ q b, .install q b ∈ ds → b = false)
    (hs : m'.history.SavesSucceed) : m'.Backed start := by
  obtain ⟨calls, hcalls, hdeeds⟩ := hdoes
  have hmem : ∀ {c d}, c ∈ calls → c.deed? = some d → d ∈ ds := by
    intro c d hc hd
    rw [← hdeeds]
    exact List.mem_filterMap.2 ⟨c, List.mem_reverse.2 hc, hd⟩
  -- A state that is stored covers the numbers given so far; without one, only failed ones are new.
  by_cases hstored : ∃ s, .store s ∈ ds
  · obtain ⟨s, hsmem⟩ := hstored
    rw [← hdeeds] at hsmem
    obtain ⟨c, hc, hd⟩ := List.mem_filterMap.1 hsmem
    have hc' : c ∈ calls := List.mem_reverse.1 hc
    have hsaved : c.saved? = some s :=
      hs.saved?_of_deed? (hcalls ▸ List.mem_append_left _ hc') hd
    apply h.saving hcalls hle hc' hsaved
    · intro c hc s hs
      exact hstore s (hmem hc (Call.deed?_of_saved? hs))
    · intro q failure hq
      exact hinstall q _ (hmem hq rfl)
  · have hnothing : ∀ s, .store s ∉ ds := fun s hs => hstored ⟨s, hs⟩
    apply h.unsaved hcalls hle
    · intro c hc
      exact Call.saved?_eq_none fun s hd => hnothing s (hmem hc hd)
    · intro q failure hq
      have hfailed : failure.isNone = false := hnone hnothing q _ (hmem hq rfl)
      refine ⟨hinstall q _ (hmem hq rfl), fun hc => ?_⟩
      rw [hc] at hfailed
      cases hfailed

theorem backed_startedFrom (settings : Settings) (matchers : Matchers) (s : PersistedState) :
    (startedFrom settings matchers s).Backed s := by
  obtain ⟨calls, hcalls, hdeeds⟩ := does_restore (new settings matchers) s
  have hquiet : ∀ c ∈ calls, c.deed? = none := by
    intro c hc
    exact List.filterMap_eq_nil_iff.1 hdeeds c (List.mem_reverse.2 hc)
  have hhistory : (startedFrom settings matchers s).history = calls ++ [] := hcalls
  have hlast : (startedFrom settings matchers s).history.lastSaved s = s := by
    rw [hhistory, History.lastSaved_of_quiet]
    · rfl
    · intro c hc
      exact Call.saved?_eq_none fun state hd => by simp [hquiet c hc] at hd
  have hnone : ∀ q failure, .install q failure ∉ (startedFrom settings matchers s).history := by
    intro q failure hq
    rw [hhistory, List.append_nil] at hq
    cases hquiet _ hq
  constructor
  case saved =>
    rw [hlast]
    exact nextIndex_le_startedFrom settings matchers s
  case given =>
    intro q failure hq
    exact absurd hq (hnone q failure)
  case backed =>
    intro q failure hq
    exact absurd hq (hnone q failure)

theorem Backed.perform (h : m.Backed s) (hr : m.registry.Keyed)
    (hlast : NumbersLast m (p, op)) (hs : (m.perform p op).2.history.SavesSucceed) :
    (m.perform p op).2.Backed s := by
  have hle := (numbersGiven_between hr hlast).1
  rcases op.eq_restore_or with ⟨state, rfl⟩ | hop
  · have hdoes : m.Does (m.perform p (.restore state)).2 [] := does_restore m state
    refine h.extend hdoes hle ?_ ?_ ?_ hs <;> simp
  · obtain ⟨tried, stored, turn, does⟩ := turn_retires (p := p) hr hop
    obtain ⟨r₁, move, stays⟩ := turn.move
    have htried : ∀ q b, .install q b ∈ tried →
        q.index < (m.perform p op).2.registry.nextIndex ∧
          (b = false ∨ m.entered? p op = some q) := by
      intro q b hq
      rcases move.number_cases with
        ⟨rfl, -⟩ | ⟨q', hindex, hnext, ⟨rfl, -⟩ | ⟨accepted, rfl, hentered, -⟩⟩
      · cases hq
      · cases hq
      · cases List.mem_singleton.1 hq
        rw [← stays.nextIndex] at hnext
        have hne := Registry.ne_lastIndex_of_add_one (hlast.of_ne_restore hop) hnext
        refine ⟨?_, ?_⟩
        · rw [hindex, hnext]
          exact Registry.lt_add_one hne
        · cases b with
          | false => exact Or.inl rfl
          | true => exact Or.inr hentered
    refine h.extend does hle ?_ ?_ ?_ hs
    · intro q b hq
      exact (htried q b (mem_turnDeeds_install.1 hq)).1
    · intro state hstate
      exact turn.current state ((mem_turnDeeds_store move).1 hstate)
    · intro hnothing q b hq
      have hnil : stored = [] := by
        rw [List.eq_nil_iff_forall_not_mem]
        intro state hstate
        exact hnothing state ((mem_turnDeeds_store move).2 hstate)
      rcases (htried q b (mem_turnDeeds_install.1 hq)).2 with hb | hentered
      · exact hb
      · rw [(turn.last hnil).1] at hentered
        cases hentered

/-! ### Two managers -/

theorem history_run (m : Manager) (steps : List Step) :
    ∃ calls, (m.run steps).history = calls ++ m.history := by
  apply run_induction (I := fun m' => ∃ calls, m'.history = calls ++ m.history)
  · rintro m₁ p₁ op ⟨calls, hcalls⟩
    rcases op.eq_restore_or with ⟨state, rfl⟩ | hop
    · obtain ⟨calls', hcalls', -⟩ := does_restore m₁ state
      exact ⟨calls' ++ calls, by rw [List.append_assoc, ← hcalls]; exact hcalls'⟩
    · obtain ⟨-, -, -, -, calls', hcalls', -⟩ := turn_perform (m := m₁) (p := p₁) hop
      exact ⟨calls' ++ calls, by rw [List.append_assoc, ← hcalls]; exact hcalls'⟩
  · exact ⟨[], rfl⟩

theorem backed_run {start : PersistedState} {steps : List Step} (hr : m.registry.Keyed)
    (hlast : Along NumbersLast m steps) (hs : (m.run steps).history.SavesSucceed)
    (h : m.Backed start) : (m.run steps).Backed start := by
  induction steps generalizing m with
  | nil => exact h
  | cons st rest ih =>
    -- The history only grows, so that what is saved in the whole run is saved in its first step.
    obtain ⟨calls, hcalls⟩ := history_run (m.perform st.1 st.2).2 rest
    have hstep : (m.perform st.1 st.2).2.history.SavesSucceed := by
      have hall : History.SavesSucceed (calls ++ (m.perform st.1 st.2).2.history) := hcalls ▸ hs
      exact History.SavesSucceed.of_append hall
    exact ih (keyed_perform hr st.2) hlast.2 hs (h.perform hr hlast.1 hstep)

/-- **Numbers that were saved stay taken.**  One manager starts from a state, and whatever it
    stores is saved; another starts from what the first one saved last.  A number that the first
    one handed to the secure store is below all that the second one gives, unless the credential
    could not be installed and nothing was saved since. -/
theorem saved_numbers_stay_taken {settings settings' : Settings} {matchers matchers' : Matchers}
    {start : PersistedState} {steps steps' : List Step}
    (hlast : Along NumbersLast (startedFrom settings matchers start) steps)
    (hs : ((startedFrom settings matchers start).run steps).history.SavesSucceed)
    (hlast' : Along NumbersLast (startedFrom settings' matchers'
      (((startedFrom settings matchers start).run steps).history.lastSaved start)) steps') :
    let first := (startedFrom settings matchers start).run steps
    let second := startedFrom settings' matchers' (first.history.lastSaved start)
    ∀ q failure, .install q failure ∈ first.history →
      (failure ≠ none → .install q failure ∉ first.history.unsaved) →
        ∀ n ∈ second.numbersAlong steps', q.index < n := by
  intro first second q failure hq hsaved n hn
  have hkeyed : ∀ {settings matchers s}, (startedFrom settings matchers s).registry.Keyed := by
    intro settings matchers s
    rw [startedFrom_registry]
    exact Registry.keyed_restore _ s
  have hbacked : first.Backed start :=
    backed_run hkeyed hlast hs (backed_startedFrom settings matchers start)
  have hbelow : q.index < (first.history.lastSaved start).nextIndex := by
    rcases hbacked.backed q failure hq with hbelow | ⟨hfailed, hunsaved⟩
    · exact hbelow
    · exact absurd hunsaved (hsaved hfailed)
  have hnext := nextIndex_le_startedFrom settings' matchers' (first.history.lastSaved start)
  have hfrom := (numbersAlong_increase hkeyed hlast').2 n hn
  exact UInt64.lt_of_lt_of_le hbelow (UInt64.le_trans hnext hfrom)

def interrupted : List Step :=
  [(.obliging, .add (some (.ofSim "a.example")) ⟨10, "shop"⟩ false),
    (.locked, .add (some (.ofSim "b.example")) ⟨10, "shop"⟩ false)]

def retried : List Step :=
  [(.obliging, .add (some (.ofSim "b.example")) ⟨10, "shop"⟩ false)]

theorem along_interrupted :
    Along NumbersLast (startedFrom .default .default .empty) interrupted :=
  ⟨fun h => absurd h (by decide), fun h => absurd h (by decide), trivial⟩

theorem saves_interrupted :
    ((startedFrom .default .default .empty).run interrupted).history.SavesSucceed :=
  History.savesSucceed_of_saved? (by decide)

theorem along_retried :
    let first := (startedFrom .default .default .empty).run interrupted
    Along NumbersLast (startedFrom .default .default (first.history.lastSaved .empty)) retried :=
  ⟨fun h => absurd h (by decide), trivial⟩

theorem saved_numbers_stay_taken_retried :
    let first := (startedFrom .default .default .empty).run interrupted
    let second := startedFrom .default .default (first.history.lastSaved .empty)
    let q := Profile.new (.ofSim "a.example") 0 ⟨10, "shop"⟩ .saved .sim
    .install q none ∈ first.history ∧ second.numbersAlong retried = [1] ∧
      ∀ n ∈ second.numbersAlong retried, q.index < n := by
  intro first second q
  have hq : Call.install q none ∈ first.history := by decide
  refine ⟨hq, by decide, ?_⟩
  exact saved_numbers_stay_taken along_interrupted saves_interrupted along_retried q none hq
    fun h => absurd rfl h

/-- **A number whose installation failed is given again.**  It is not so that no number which was
    handed to the secure store is given to a profile after a restart. -/
theorem failed_number_given_again :
    ¬ ∀ (start : PersistedState) (steps steps' : List Step),
      let first := (startedFrom .default .default start).run steps
      let second := startedFrom .default .default (first.history.lastSaved start)
      Along NumbersLast (startedFrom .default .default start) steps →
      first.history.SavesSucceed → Along NumbersLast second steps' →
        ∀ q failure, .install q failure ∈ first.history →
          q.index ∉ second.numbersAlong steps' := by
  intro hclaim
  have hnever := hclaim .empty interrupted retried along_interrupted saves_interrupted along_retried
    (.new (.ofSim "b.example") 1 ⟨10, "shop"⟩ .saved .sim) (some (.unavailable "store"))
  exact hnever (by decide) (by decide)

end Manager

end Hotspot
