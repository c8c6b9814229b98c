/-
  Hotspot/Proofs/Custody.lean
  ===========================
  **What the secure store holds.**

  The manager puts credentials into the secure store and takes them out, and never looks what is
  in there.  All the same the store holds just what belongs to the installed profiles: nothing
  is forgotten in it, and no profile loses its credential while it is installed.  Only imported
  profiles stand apart, whose credentials were in the store under names of their own.

  The argument is about numbers, since an alias tells its number.  `Ledger` balances the numbers
  that were put into the store and taken out against those of the installed profiles; a turn
  keeps the balance, because what it takes out was installed and the number that it gives is new.
-/
import Hotspot.Proofs.Restart

namespace Hotspot

theorem Profile.alias_eq_iff {q q' : Profile} :
    q.credentialAlias = q'.credentialAlias ↔ q.index = q'.index := by
  constructor
  · exact index_eq_of_alias_eq
  · intro h
    rw [credentialAlias, credentialAlias, h]

/-! ### Ledgers -/

/-- Of the numbers below the next one, those that were put in and not taken out are those of the
    profiles that are installed and were not imported; and what was taken out is not installed. -/
structure Ledger (put taken imported installed : UInt64 → Prop) (next : UInt64) : Prop where
  bounded : ∀ n, put n ∨ taken n ∨ imported n ∨ installed n → n < next
  held : ∀ n, put n ∧ ¬ taken n ↔ installed n ∧ ¬ imported n
  gone : ∀ n, taken n → ¬ installed n

/-- **A turn keeps the balance.**  A new number is the next one and therefore on no side yet;
    what goes is taken out. -/
theorem Ledger.turn {put taken imported installed put' taken' imported' installed' : UInt64 → Prop}
    {next next' : UInt64} (h : Ledger put taken imported installed next)
    {newlyPut newlyImported gone : UInt64 → Prop} (hle : next ≤ next')
    (hput : ∀ n, put' n ↔ newlyPut n ∨ put n) (htaken : ∀ n, taken' n ↔ gone n ∨ taken n)
    (himported : ∀ n, imported' n ↔ newlyImported n ∨ imported n)
    (hinstalled : ∀ n, installed' n ↔
      (installed n ∧ ¬ gone n) ∨ newlyPut n ∨ newlyImported n)
    (hnew : ∀ n, newlyPut n ∨ newlyImported n → n = next ∧ next < next')
    (hone : ∀ n, newlyPut n → ¬ newlyImported n) (hgone : ∀ n, gone n → installed n) :
    Ledger put' taken' imported' installed' next' := by
  have hold : ∀ n, put n ∨ taken n ∨ imported n ∨ installed n →
      ¬ (newlyPut n ∨ newlyImported n) := by
    intro n hn hfresh
    have hlt := h.bounded n hn
    rw [(hnew n hfresh).1] at hlt
    exact UInt64.lt_irrefl _ hlt
  constructor
  case bounded =>
    intro n hn
    by_cases hfresh : newlyPut n ∨ newlyImported n
    · obtain ⟨rfl, hlt⟩ := hnew n hfresh
      exact hlt
    · have hbefore : put n ∨ taken n ∨ imported n ∨ installed n := by
        have hgone := hgone n
        grind
      exact UInt64.lt_of_lt_of_le (h.bounded n hbefore) hle
  case held =>
    intro n
    have hheld := h.held n
    have hgone := h.gone n
    have hold := hold n
    grind
  case gone =>
    intro n
    have hgone := h.gone n
    have hold := hold n
    grind

namespace Registry

def HasNumber (r : Registry) (n : UInt64) : Prop :=
  ∃ fqdn q, r.get? fqdn = some q ∧ q.index = n

variable {r r' : Registry} {op : Operation} {entered : Option Profile} {tried : List Deed}
  {gone : List Profile} {stored : List PersistedState}

/-- The numbers after a turn are those of the profiles that are not gone, and that of the one
    that was entered. -/
theorem Turn.hasNumber_iff (t : r.Turn op entered tried gone stored r') (hr : r.Keyed)
    (hdistinct : r.Distinct) (hgone : ∀ q ∈ gone, r.get? q.fqdn = some q) (n : UInt64) :
    r'.HasNumber n ↔ (r.HasNumber n ∧ ¬ ∃ q ∈ gone, q.index = n) ∨
      ∃ q, entered = some q ∧ q.index = n := by
  constructor
  · rintro ⟨fqdn, q', hget, rfl⟩
    rcases t.origin hr hget with ⟨q, hq, -, hsame⟩ | ⟨q, hq, hnot, hsame⟩
    · exact Or.inr ⟨q, hq, hsame.index.symm⟩
    · refine Or.inl ⟨⟨fqdn, q, hq, hsame.index.symm⟩, ?_⟩
      rintro ⟨g, hg, hindex⟩
      have hfqdn := hdistinct _ _ _ _ (hgone g hg) hq (hindex.trans hsame.index)
      have hget' := hgone g hg
      rw [hfqdn, hq, Option.some.injEq] at hget'
      exact hnot (hget' ▸ hg)
  · rintro (⟨⟨fqdn, q, hq, rfl⟩, hnot⟩ | ⟨q, hq, rfl⟩)
    · obtain ⟨q', hget, hsame⟩ := t.kept hr hq fun hmem => hnot ⟨q, hmem, rfl⟩
      exact ⟨fqdn, q', hget, hsame.index⟩
    · obtain ⟨q', hget, hsame⟩ := t.entered_stays hr hq
      exact ⟨q.fqdn, q', hget, hsame.index⟩

theorem Distinct.nodup_numbers (hr : r.Keyed) (hdistinct : r.Distinct) :
    (r.profiles.values.map (·.index)).Nodup := by
  rw [List.Nodup, List.pairwise_map]
  apply List.Pairwise.imp_of_mem _ hr.ne_of_ne
  intro q q' hq hq' hne hindex
  exact hne (hdistinct _ _ _ _ (hr.get?_of_mem_values hq) (hr.get?_of_mem_values hq') hindex)

end Registry

/-! ### The secure store -/

def Call.installed? : Call → Option Profile
  | .install q none => some q
  | _ => none

def Deed.installed? : Deed → Option Profile
  | .install q true => some q
  | _ => none

def Deed.uninstalled? : Deed → Option Profile
  | .uninstall q => some q
  | _ => none

theorem Call.installed?_eq (c : Call) : c.installed? = c.deed?.bind Deed.installed? := by
  cases c with
  | install q failure => cases failure <;> rfl
  | _ => rfl

theorem Call.uninstalled?_eq (c : Call) : c.uninstalled? = c.deed?.bind Deed.uninstalled? := by
  cases c <;> rfl

/-- The profiles whose credentials were in the secure store at some time: those it started with,
    and those that were installed since. -/
def History.everHeld (h : History) (start : PersistedState) : List Profile :=
  start.profiles ++ h.filterMap Call.installed?

/-- The aliases that the secure store holds: those it ever held but for those taken out, whether
    or not the store said that it failed to. -/
def History.heldAliases (h : History) (start : PersistedState) : List String :=
  ((h.everHeld start).map (·.credentialAlias)).filter fun name =>
    name ∉ (h.filterMap Call.uninstalled?).map (·.credentialAlias)

namespace Manager

variable {m : Manager} {p : Platform} {op : Operation} {start : PersistedState}
  {imported : List Profile}

def importedAlong : Manager → List Step → List Profile
  | _, [] => []
  | m, s :: rest => (m.imported? s.1 s.2).toList ++ importedAlong (m.perform s.1 s.2).2 rest

/-- The profiles in the registry and the credentials in the secure store agree. -/
structure Custody (start : PersistedState) (imported : List Profile) (m : Manager) : Prop where
  keyed : m.registry.Keyed
  numbered : m.registry.Numbered
  distinct : m.registry.Distinct
  ledger : Ledger (· ∈ (m.history.everHeld start).map (·.index))
    (· ∈ (m.history.filterMap Call.uninstalled?).map (·.index)) (· ∈ imported.map (·.index))
    m.registry.HasNumber m.registry.nextIndex
  once : ((m.history.filterMap Call.uninstalled?).map (·.index)).Nodup
  imported_same : ∀ i ∈ imported, ∀ fqdn q, m.registry.get? fqdn = some q → i.index = q.index →
    i.SameInstallation q

section Turns

variable {entered : Option Profile} {tried : List Deed} {gone : List Profile}
  {stored : List PersistedState} {m' : Manager}

theorem uninstalled_turn {r r' : Registry} (h : r.Move op entered tried gone r') :
    (turnDeeds entered tried gone stored).filterMap Deed.uninstalled? = gone := by
  have htried : tried.filterMap Deed.uninstalled? = [] := by
    rcases h.tried_cases with rfl | ⟨q, accepted, rfl⟩ <;> rfl
  have hdismissal : ∀ q, (dismissal entered q).filterMap Deed.uninstalled? = [q] := by
    intro q
    unfold dismissal
    split <;> rfl
  rw [filterMap_turnDeeds, htried]
  simp [hdismissal, Deed.uninstalled?]

theorem taken_turn {r r' : Registry} (h : r.Move op entered tried gone r')
    (hdoes : m.Does m' (turnDeeds entered tried gone stored)) :
    m'.history.filterMap Call.uninstalled? =
      gone.reverse ++ m.history.filterMap Call.uninstalled? := by
  rw [hdoes.history_filterMap Call.uninstalled?_eq, uninstalled_turn h]

theorem mem_taken_turn {r r' : Registry} (h : r.Move op entered tried gone r')
    (hdoes : m.Does m' (turnDeeds entered tried gone stored)) (n : UInt64) :
    n ∈ (m'.history.filterMap Call.uninstalled?).map (·.index) ↔
      (∃ q ∈ gone, q.index = n) ∨
        n ∈ (m.history.filterMap Call.uninstalled?).map (·.index) := by
  rw [taken_turn h hdoes]
  simp only [List.map_append, List.mem_append, List.map_reverse, List.mem_reverse, List.mem_map]

theorem mem_everHeld_turn (hdoes : m.Does m' (turnDeeds entered tried gone stored))
    (start : PersistedState) (n : UInt64) :
    n ∈ (m'.history.everHeld start).map (·.index) ↔
      (∃ q ∈ tried.filterMap Deed.installed?, q.index = n) ∨
        n ∈ (m.history.everHeld start).map (·.index) := by
  have hinstalled : (turnDeeds entered tried gone stored).filterMap Deed.installed? =
      tried.filterMap Deed.installed? :=
    filterMap_turnDeeds_tried (fun _ => rfl) (fun _ => rfl) fun _ => rfl
  rw [History.everHeld, hdoes.history_filterMap Call.installed?_eq, hinstalled, History.everHeld]
  simp only [List.map_append, List.mem_append, List.map_reverse, List.mem_reverse, List.mem_map]
  exact or_left_comm

end Turns

/-- The number of a profile that is entered is new, and the profile is either put into the secure
    store or imported. -/
theorem entered_number {tried : List Deed} {gone : List Profile} {stored : List PersistedState}
    (hr : m.registry.Keyed) (hlast : NumbersLast m (p, op)) (hop : ∀ s, op ≠ .restore s)
    (turn : m.registry.Turn op (m.entered? p op) tried gone stored
      (m.perform p op).2.registry) (n : UInt64) :
    let newlyPut := ∃ q ∈ tried.filterMap Deed.installed?, q.index = n
    let newlyImported := ∃ q, m.imported? p op = some q ∧ q.index = n
    ((∃ q, m.entered? p op = some q ∧ q.index = n) ↔ newlyPut ∨ newlyImported) ∧
      (newlyPut ∨ newlyImported → n = m.registry.nextIndex ∧
        m.registry.nextIndex < (m.perform p op).2.registry.nextIndex) ∧
      (newlyPut → ¬ newlyImported) := by
  rcases given_cases hr turn with ⟨rfl, hentered, himported, -⟩ | ⟨q, hq, hnext, hcase⟩
  · simp [hentered, himported]
  · have hlt : m.registry.nextIndex < (m.perform p op).2.registry.nextIndex := by
      have hne := Registry.ne_lastIndex_of_add_one (hlast.of_ne_restore hop) hnext
      exact hnext ▸ Registry.lt_add_one hne
    rcases hcase with ⟨rfl, hentered, q', himported, hsame⟩ | ⟨accepted, rfl, himported, hentered⟩
    · simp [hentered, himported, hsame.index, hq, hlt, eq_comm]
    · cases accepted <;>
        simp [hentered, himported, Deed.installed?, hq, hlt, eq_comm]

theorem Custody.perform (h : m.Custody start imported) (hlast : NumbersLast m (p, op))
    (hop : ∀ s, op ≠ .restore s) :
    (m.perform p op).2.Custody start (imported ++ (m.imported? p op).toList) := by
  obtain ⟨tried, stored, turn, does⟩ := turn_retires (p := p) h.keyed hop
  obtain ⟨r₁, move, stays⟩ := turn.move
  have hgone : ∀ q ∈ m.retired p op, m.registry.get? q.fqdn = some q := by
    intro q hq
    exact h.keyed.get?_of_mem_values (List.mem_filter.1 hq).1
  have hdistinct := turn.distinct h.keyed h.numbered h.distinct
  constructor
  case keyed => exact keyed_perform h.keyed op
  case numbered => exact numbered_perform op hlast h.numbered
  case distinct => exact hdistinct
  case ledger =>
    have hnew := entered_number h.keyed hlast hop turn
    have himported : ∀ n, n ∈ (imported ++ (m.imported? p op).toList).map (·.index) ↔
        (∃ q, m.imported? p op = some q ∧ q.index = n) ∨ n ∈ imported.map (·.index) := by
      intro n
      simp only [List.map_append, List.mem_append, List.mem_map, Option.mem_toList]
      exact or_comm
    have hinstalled : ∀ n, (m.perform p op).2.registry.HasNumber n ↔
        (m.registry.HasNumber n ∧ ¬ ∃ q ∈ m.retired p op, q.index = n) ∨
          (∃ q ∈ tried.filterMap Deed.installed?, q.index = n) ∨
            ∃ q, m.imported? p op = some q ∧ q.index = n := by
      intro n
      rw [turn.hasNumber_iff h.keyed h.distinct hgone n]
      exact or_congr_right (hnew n).1
    have hbefore : ∀ n, (∃ q ∈ m.retired p op, q.index = n) → m.registry.HasNumber n := by
      rintro n ⟨q, hq, hindex⟩
      exact ⟨q.fqdn, q, hgone q hq, hindex⟩
    exact h.ledger.turn (numbersGiven_between h.keyed hlast).1 (mem_everHeld_turn does start)
      (mem_taken_turn move does) himported hinstalled (fun n => (hnew n).2.1)
      (fun n => (hnew n).2.2) hbefore
  case once =>
    rw [taken_turn move does, List.map_append, List.map_reverse]
    have hretired : ((m.retired p op).map (·.index)).Nodup :=
      (Registry.Distinct.nodup_numbers h.keyed h.distinct).sublist (List.filter_sublist.map _)
    refine List.nodup_append.2 ⟨List.nodup_reverse.2 hretired, h.once, ?_⟩
    rintro n hn n' hn' rfl
    obtain ⟨q, hq, rfl⟩ := List.mem_map.1 (List.mem_reverse.1 hn)
    exact h.ledger.gone _ hn' ⟨q.fqdn, q, hgone q hq, rfl⟩
  case imported_same =>
    intro i hi fqdn q' hget hindex
    rcases List.mem_append.1 hi with hi | hi
    · rcases turn.origin h.keyed hget with ⟨e, he, -, hsame⟩ | ⟨q, hq, -, hsame⟩
      · -- A new profile has a number that no earlier import has.
        have hlt := h.ledger.bounded i.index
          (Or.inr (Or.inr (Or.inl (List.mem_map_of_mem hi))))
        rw [hindex, hsame.index, turn.index_of_entered he] at hlt
        exact absurd hlt (UInt64.lt_irrefl _)
      · exact (h.imported_same i hi fqdn q hq (hindex.trans hsame.index)).trans hsame
    · -- What is imported now is installed, and nothing else has its number.
      obtain ⟨fqdn', hget'⟩ := get?_of_imported? (Option.mem_toList.1 hi)
      have hfqdn := hdistinct _ _ _ _ hget' hget hindex
      rw [hfqdn, hget, Option.some.injEq] at hget'
      exact hget' ▸ .refl q'

/-! ### Runs -/

theorem custody_startedFrom (settings : Settings) (matchers : Matchers)
    (hdomains : (start.profiles.map (·.fqdn)).Nodup)
    (hnumbers : (start.profiles.map (·.index)).Nodup)
    (hlast : ∀ q ∈ start.profiles, q.index ≠ Registry.lastIndex) :
    (startedFrom settings matchers start).Custody start [] := by
  have hregistry := startedFrom_registry settings matchers start
  have hdoes : (new settings matchers).Does (startedFrom settings matchers start) [] :=
    does_restore _ start
  have hput : (startedFrom settings matchers start).history.everHeld start = start.profiles := by
    rw [History.everHeld, hdoes.history_filterMap Call.installed?_eq]
    exact List.append_nil _
  have htaken : (startedFrom settings matchers start).history.filterMap Call.uninstalled? = [] := by
    rw [hdoes.history_filterMap Call.uninstalled?_eq]
    rfl
  have hinstalled : ∀ n, (Registry.empty.restore start).HasNumber n ↔
      n ∈ start.profiles.map (·.index) := by
    intro n
    rw [List.mem_map]
    constructor
    · rintro ⟨fqdn, q, hget, hindex⟩
      exact ⟨q, (Registry.get?_restore hget).1, hindex⟩
    · rintro ⟨q, hq, hindex⟩
      exact ⟨q.fqdn, q, Registry.get?_restore_of_mem _ hdomains hq, hindex⟩
  have hbelow : ∀ n ∈ start.profiles.map (·.index), n < (Registry.empty.restore start).nextIndex := by
    intro n hn
    obtain ⟨q, hq, rfl⟩ := List.mem_map.1 hn
    exact Registry.index_lt_restore _ hq (hlast q hq)
  constructor
  case keyed => exact hregistry ▸ Registry.keyed_restore _ start
  case numbered => exact hregistry ▸ Registry.numbered_restore _ hlast
  case distinct => exact hregistry ▸ Registry.distinct_restore _ hnumbers
  case ledger =>
    rw [hput, htaken, hregistry]
    constructor
    case bounded =>
      intro n hn
      simp only [List.map_nil, List.not_mem_nil, false_or, hinstalled, or_self] at hn
      exact hbelow n hn
    case held =>
      intro n
      simp [hinstalled]
    case gone =>
      intro n hn
      cases hn
  case once =>
    rw [htaken]
    exact List.nodup_nil
  case imported_same =>
    intro i hi
    cases hi

/-- **The secure store and the registry agree all along a run** in which nothing is restored. -/
theorem Custody.run (h : m.Custody start imported) {steps : List Step}
    (hlast : Along NumbersLast m steps) (hsteps : ∀ p s, (p, Operation.restore s) ∉ steps) :
    (m.run steps).Custody start (imported ++ m.importedAlong steps) := by
  induction steps generalizing m imported with
  | nil =>
    rw [importedAlong, List.append_nil]
    exact h
  | cons s rest ih =>
    obtain ⟨p, op⟩ := s
    have hop : ∀ state, op ≠ .restore state := by
      rintro state rfl
      exact hsteps p state List.mem_cons_self
    have hstep := h.perform hlast.1 hop
    rw [importedAlong, ← List.append_assoc]
    exact ih hstep hlast.2 fun p' state hmem => hsteps p' state (List.mem_cons_of_mem _ hmem)

/-- From numbers to aliases. -/
theorem Custody.mem_heldAliases_iff (h : m.Custody start imported) (name : String) :
    name ∈ m.history.heldAliases start ↔
      ∃ fqdn q, m.registry.get? fqdn = some q ∧ q.credentialAlias = name ∧
        ¬ ∃ i ∈ imported, i.SameInstallation q := by
  have htaken : ∀ q : Profile,
      q.credentialAlias ∈ (m.history.filterMap Call.uninstalled?).map (·.credentialAlias) ↔
        q.index ∈ (m.history.filterMap Call.uninstalled?).map (·.index) := by
    intro q
    simp only [List.mem_map, Profile.alias_eq_iff]
  unfold History.heldAliases
  rw [List.mem_filter, decide_eq_true_iff]
  constructor
  · rintro ⟨hmem, hnot⟩
    obtain ⟨q, hq, rfl⟩ := List.mem_map.1 hmem
    rw [htaken] at hnot
    obtain ⟨⟨fqdn, q', hget, hindex⟩, himported⟩ :=
      (h.ledger.held q.index).1 ⟨List.mem_map_of_mem hq, hnot⟩
    refine ⟨fqdn, q', hget, Profile.alias_eq_iff.2 hindex, ?_⟩
    rintro ⟨i, hi, hsame⟩
    exact himported (List.mem_map.2 ⟨i, hi, hsame.index.symm.trans hindex⟩)
  · rintro ⟨fqdn, q, hget, rfl, hnot⟩
    have himported : q.index ∉ imported.map (·.index) := by
      intro hmem
      obtain ⟨i, hi, hindex⟩ := List.mem_map.1 hmem
      exact hnot ⟨i, hi, h.imported_same i hi fqdn q hget hindex⟩
    obtain ⟨hput, hkept⟩ := (h.ledger.held q.index).2 ⟨⟨fqdn, q, hget, rfl⟩, himported⟩
    obtain ⟨q', hq', hindex⟩ := List.mem_map.1 hput
    exact ⟨List.mem_map.2 ⟨q', hq', Profile.alias_eq_iff.2 hindex⟩, fun hc => hkept ((htaken q).1 hc)⟩

theorem uninstalled_perform (hr : m.registry.Keyed) (hop : ∀ s, op ≠ .restore s) :
    (callsSince m.history (m.perform p op).2.history).filterMap Call.uninstalled? =
      m.retired p op := by
  obtain ⟨tried, stored, turn, does⟩ := turn_retires (p := p) hr hop
  obtain ⟨r₁, move, -⟩ := turn.move
  rw [does.filterMap_eq Call.uninstalled?_eq, uninstalled_turn move]

/-- No installed profile has the alias of a credential that was taken out. -/
theorem Custody.alias_ne (h : m.Custody start imported) {u q : Profile} {fqdn : String}
    (hu : u ∈ m.history.filterMap Call.uninstalled?) (hget : m.registry.get? fqdn = some q) :
    q.credentialAlias ≠ u.credentialAlias := by
  intro halias
  have hindex : q.index = u.index := Profile.alias_eq_iff.1 halias
  exact h.ledger.gone u.index (List.mem_map_of_mem hu) ⟨fqdn, q, hget, hindex⟩

theorem mem_history_of_callsSince {h h' : History} {c : Call} (hc : c ∈ callsSince h h') :
    c ∈ h' :=
  List.mem_of_mem_take (List.mem_reverse.1 hc)

/-- **No credential is left behind, and none is taken away.**  A manager starts from a state in
    which neither domains nor numbers repeat, and restores nothing later; counting does not reach
    the end of the numbers.  Then the secure store holds the credentials of just those installed
    profiles that were not imported in the run.  None is taken out twice, and an operation takes
    out those of the profiles that it retires; a profile that is installed afterwards has another
    alias. -/
theorem custody_is_exact {settings : Settings} {matchers : Matchers} {start : PersistedState}
    {steps : List Step} (hdomains : (start.profiles.map (·.fqdn)).Nodup)
    (hnumbers : (start.profiles.map (·.index)).Nodup)
    (hstart : ∀ q ∈ start.profiles, q.index ≠ Registry.lastIndex)
    (hlast : Along NumbersLast (startedFrom settings matchers start) steps)
    (hsteps : ∀ p s, (p, Operation.restore s) ∉ steps) :
    let m₀ := startedFrom settings matchers start
    let m := m₀.run steps
    (∀ name, name ∈ m.history.heldAliases start ↔
      ∃ fqdn q, m.registry.get? fqdn = some q ∧ q.credentialAlias = name ∧
        ¬ ∃ i ∈ m₀.importedAlong steps, i.SameInstallation q) ∧
    ((m.history.filterMap Call.uninstalled?).map (·.credentialAlias)).Nodup ∧
    ∀ before p op after, steps = before ++ (p, op) :: after →
      let b := m₀.run before
      let b' := (b.perform p op).2
      (callsSince b.history b'.history).filterMap Call.uninstalled? = b.retired p op ∧
        ∀ u ∈ (callsSince b.history b'.history).filterMap Call.uninstalled?,
          ∀ fqdn q, b'.registry.get? fqdn = some q → q.credentialAlias ≠ u.credentialAlias := by
  intro m₀ m
  have hbegin : m₀.Custody start [] :=
    custody_startedFrom settings matchers hdomains hnumbers hstart
  have hcustody : m.Custody start (m₀.importedAlong steps) := hbegin.run hlast hsteps
  refine ⟨hcustody.mem_heldAliases_iff, ?_, ?_⟩
  · have honce := hcustody.once
    rw [List.Nodup, List.pairwise_map] at honce ⊢
    exact honce.imp fun hne halias => hne (Profile.alias_eq_iff.1 halias)
  · rintro before p op after rfl b b'
    obtain ⟨hbefore, hstep, -⟩ := Along.append_iff.1 hlast
    have hop : ∀ s, op ≠ .restore s := by
      rintro s rfl
      exact hsteps p s (List.mem_append_right _ List.mem_cons_self)
    have hb : b.Custody start (m₀.importedAlong before) :=
      hbegin.run hbefore fun p' s hmem => hsteps p' s (List.mem_append_left _ hmem)
    have hb' := hb.perform hstep hop
    refine ⟨uninstalled_perform hb.keyed hop, ?_⟩
    intro u hu fqdn q hget
    obtain ⟨c, hc, huninstalled⟩ := List.mem_filterMap.1 hu
    exact hb'.alias_ne (List.mem_filterMap.2 ⟨c, mem_history_of_callsSince hc, huninstalled⟩) hget

/-- A profile is imported and another one installed, and the one that was there at the start is
    removed while its credential cannot be taken out. -/
def changeover : List Step :=
  [(.obliging, .importLegacy (.ofSim "c.example")),
    (.obliging, .add (some (.ofSim "a.example")) ⟨10, "shop"⟩ false),
    (.failing none, .remove 11 false "b.example")]

theorem custody_is_exact_changeover :
    let m₀ := startedFrom .default .default storedAhead
    let m := m₀.run changeover
    m.history.heldAliases storedAhead = ["HS2_9"] ∧
      (m.history.filterMap Call.uninstalled?).map (·.credentialAlias) = ["HS2_7"] ∧
      ∃ fqdn q, m.registry.get? fqdn = some q ∧ q.credentialAlias = "HS2_9" ∧
        ¬ ∃ i ∈ m₀.importedAlong changeover, i.SameInstallation q := by
  intro m₀ m
  have hstart : ∀ q ∈ storedAhead.profiles, q.index ≠ Registry.lastIndex := by
    intro q hq
    rw [List.mem_singleton.1 hq]
    decide
  have hlast : Along NumbersLast m₀ changeover :=
    ⟨fun h => absurd h (by decide), fun h => absurd h (by decide),
      fun h => absurd h (by decide), trivial⟩
  have hsteps : ∀ p s, (p, Operation.restore s) ∉ changeover := by
    intro p s hmem
    simp [changeover] at hmem
  obtain ⟨hheld, -, -⟩ :=
    custody_is_exact (by decide) (by decide) hstart hlast hsteps
  have hone : m.history.heldAliases storedAhead = ["HS2_9"] := by decide
  exact ⟨hone, by decide, (hheld "HS2_9").1 (hone ▸ List.mem_singleton.2 rfl)⟩

end Manager

end Hotspot
