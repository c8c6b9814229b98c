/-
  Hotspot/Proofs/Freshness.lean
  =============================
  **A number is given once.**

  An operation gives at most one number, the next one, and then counts on (`given_cases`).  A
  restored state only raises the next number, above every number in it.  So the numbers that are
  given in the course of a run increase, whatever is removed, replaced or restored meanwhile, and
  no two profiles that are installed at one time have the same.

  A number counts as given when a profile under it is handed to the secure store, whether it can
  be installed or not, and when an entry is imported under it.
-/
import Mathlib.Data.List.Nodup
import Hotspot.Proofs.Numbering
import Hotspot.Proofs.Retirement

namespace Hotspot

/-- The alias of a profile tells its number. -/
theorem Profile.index_eq_of_alias_eq {q q' : Profile}
    (h : q.credentialAlias = q'.credentialAlias) : q.index = q'.index := by
  have htext : toString q.index.toNat = toString q'.index.toNat :=
    (String.append_right_inj "HS2_").1 h
  have hdigits : Nat.toDigits 10 q.index.toNat = Nat.toDigits 10 q'.index.toNat := by
    simpa only [Nat.toString_eq_repr, Nat.toList_repr] using congrArg String.toList htext
  have hvalue := congrArg (fun digits => Nat.ofDigitChars 10 digits 0) hdigits
  simp only [Nat.ofDigitChars_toDigits (show 1 < 10 by decide) (show 10 ≤ 10 by decide)] at hvalue
  exact UInt64.toNat_inj.1 hvalue

/-! ### Distinct numbers -/

namespace Registry

/-- No two profiles have one number. -/
def Distinct (r : Registry) : Prop :=
  ∀ fqdn fqdn' q q', r.get? fqdn = some q → r.get? fqdn' = some q' → q.index = q'.index →
    fqdn = fqdn'

theorem distinct_empty : empty.Distinct := fun _ _ _ _ h => nomatch h

theorem distinct_restore (r : Registry) {s : PersistedState}
    (hs : (s.profiles.map (·.index)).Nodup) : (r.restore s).Distinct := by
  intro fqdn fqdn' q q' hget hget' hindex
  obtain ⟨hmem, hfqdn⟩ := get?_restore hget
  obtain ⟨hmem', hfqdn'⟩ := get?_restore hget'
  have hq : q = q' := List.inj_on_of_nodup_map hs hmem hmem' hindex
  rw [← hfqdn, ← hfqdn', hq]

variable {r r' : Registry} {op : Operation} {entered : Option Profile} {tried : List Deed}
  {gone : List Profile} {stored : List PersistedState}

/-- A move gives no number, or the next one to a profile that is imported or handed to the
    secure store. -/
theorem Move.number_cases (h : r.Move op entered tried gone r') :
    (tried = [] ∧ entered = none ∧ r'.nextIndex = r.nextIndex) ∨
    ∃ q, q.index = r.nextIndex ∧ r'.nextIndex = r.nextIndex + 1 ∧
      ((tried = [] ∧ entered = some q ∧ ∃ entry, op = .importLegacy entry) ∨
      (∃ accepted, tried = [.install q accepted] ∧
        (entered = if accepted then some q else none) ∧ ∀ entry, op ≠ .importLegacy entry)) := by
  cases h with
  | refused q index =>
    exact Or.inr ⟨q, index, rfl, Or.inr ⟨false, rfl, rfl, fun _ h => nomatch h⟩⟩
  | installed q index =>
    exact Or.inr ⟨q, index, rfl, Or.inr ⟨true, rfl, rfl, fun _ h => nomatch h⟩⟩
  | imported q index => exact Or.inr ⟨q, index, rfl, Or.inl ⟨rfl, rfl, _, rfl⟩⟩
  | _ => exact Or.inl ⟨rfl, rfl, rfl⟩

theorem Move.index_of_entered (h : r.Move op entered tried gone r') {q : Profile}
    (hq : entered = some q) : q.index = r.nextIndex := by
  subst hq
  cases h with
  | installed _ index => exact index
  | imported _ index => exact index

theorem Turn.index_of_entered (t : r.Turn op entered tried gone stored r') {q : Profile}
    (hq : entered = some q) : q.index = r.nextIndex := by
  obtain ⟨r₁, move, -⟩ := t.move
  exact move.index_of_entered hq

theorem Turn.distinct (t : r.Turn op entered tried gone stored r') (hkeyed : r.Keyed)
    (hnumbered : r.Numbered) (hdistinct : r.Distinct) : r'.Distinct := by
  have hnew : ∀ {e b fqdn}, entered = some e → r.get? fqdn = some b → b.index ≠ e.index := by
    intro e b fqdn he hb
    rw [t.index_of_entered he]
    exact UInt64.ne_of_lt (hnumbered fqdn b hb)
  intro fqdn₁ fqdn₂ q₁ q₂ hget₁ hget₂ hindex
  rcases t.origin hkeyed hget₁ with ⟨e₁, he₁, rfl, hsame₁⟩ | ⟨b₁, hb₁, -, hsame₁⟩ <;>
    rcases t.origin hkeyed hget₂ with ⟨e₂, he₂, rfl, hsame₂⟩ | ⟨b₂, hb₂, -, hsame₂⟩ <;>
    rw [hsame₁.index, hsame₂.index] at hindex
  · rw [he₁, Option.some.injEq] at he₂
    rw [he₂]
  · exact absurd hindex.symm (hnew he₁ hb₂)
  · exact absurd hindex (hnew he₂ hb₁)
  · exact hdistinct _ _ _ _ hb₁ hb₂ hindex

end Registry

/-! ### Imports -/

theorem Legacy.Entry.fqdn_of_toProfileConfig {entry : Legacy.Entry} {config : ProfileConfig}
    {type : CredentialType} (h : entry.toProfileConfig = .ok (config, type)) :
    config.fqdn = entry.fqdn := by
  unfold Legacy.Entry.toProfileConfig at h
  split at h
  · cases h
  · cases hcredential : entry.enterprise.credential with
    | error e =>
      rw [hcredential] at h
      cases h
    | ok converted =>
      rw [hcredential] at h
      cases h
      rfl

def Call.tried? : Call → Option Profile
  | .install q _ => some q
  | _ => none

def Deed.tried? : Deed → Option Profile
  | .install q _ => some q
  | _ => none

theorem Call.tried?_eq (c : Call) : c.tried? = c.deed?.bind Deed.tried? := by
  cases c <;> rfl

namespace Manager

variable {m : Manager} {p : Platform} {op : Operation}

/-- The profile that an operation imports: the one that is under the domain of an entry once that
    is imported. -/
def imported? (m : Manager) (p : Platform) : Operation → Option Profile
  | .importLegacy entry =>
    if (m.perform p (.importLegacy entry)).1 = .done then
      (m.perform p (.importLegacy entry)).2.registry.get? entry.fqdn
    else none
  | _ => none

def numbersGiven (m : Manager) (p : Platform) (op : Operation) : List UInt64 :=
  ((callsSince m.history (m.perform p op).2.history).filterMap Call.tried? ++
    (m.imported? p op).toList).map (·.index)

def numbersAlong : Manager → List Step → List UInt64
  | _, [] => []
  | m, s :: rest => m.numbersGiven s.1 s.2 ++ numbersAlong (m.perform s.1 s.2).2 rest

theorem imported?_importLegacy (entry : Legacy.Entry) :
    (m.entered? p (.importLegacy entry) = none ∧ m.imported? p (.importLegacy entry) = none) ∨
      ∃ q, m.entered? p (.importLegacy entry) = some q ∧
        m.imported? p (.importLegacy entry) =
          (m.perform p (.importLegacy entry)).2.registry.get? q.fqdn := by
  have hperform : m.perform p (.importLegacy entry) =
      (m.importLegacy p entry).map .ofResult id := rfl
  unfold imported? entered?
  cases hentry : entry.toProfileConfig with
  | error reason =>
    have hreply : (m.perform p (.importLegacy entry)).1 ≠ .done := by
      rw [hperform, importLegacy_eq, hentry]
      exact fun h => nomatch h
    exact Or.inl ⟨if_neg hreply, if_neg hreply⟩
  | ok converted =>
    obtain ⟨config, type⟩ := converted
    have hreply : (m.perform p (.importLegacy entry)).1 = .done := by
      rw [hperform, importLegacy_eq, hentry]
      rfl
    let q := Profile.new config m.registry.nextIndex entry.creator .saved type
    have hfqdn : q.fqdn = entry.fqdn := Legacy.Entry.fqdn_of_toProfileConfig hentry
    refine Or.inr ⟨q, ?_, ?_⟩
    · rw [if_pos hreply, Operation.candidate?, hentry]
    · rw [hfqdn]
      exact if_pos hreply

theorem get?_of_imported? {q : Profile} (h : m.imported? p op = some q) :
    ∃ fqdn, (m.perform p op).2.registry.get? fqdn = some q := by
  cases op with
  | importLegacy entry =>
    unfold imported? at h
    dsimp only at h
    split at h
    · exact ⟨entry.fqdn, h⟩
    · cases h
  | _ => cases h

/-- What an operation imports is what it enters, if it is an import at all. -/
theorem imported?_cases (hr : m.registry.Keyed) (op : Operation) :
    (m.imported? p op = none ∧ ∀ entry, op = .importLegacy entry → m.entered? p op = none) ∨
      ∃ q q' entry, op = .importLegacy entry ∧ m.entered? p op = some q ∧
        m.imported? p op = some q' ∧ q.SameInstallation q' := by
  cases op with
  | importLegacy entry =>
    rcases m.imported?_importLegacy (p := p) entry with ⟨hentered, himported⟩ | ⟨q, hq, himported⟩
    · exact Or.inl ⟨himported, fun _ _ => hentered⟩
    · obtain ⟨tried, stored, turn, -⟩ := turn_retires (p := p) hr
        (show ∀ s, Operation.importLegacy entry ≠ .restore s from fun _ h => nomatch h)
      obtain ⟨q', hget, hsame⟩ := turn.entered_stays hr hq
      exact Or.inr ⟨q, q', entry, rfl, hq, himported.trans hget, hsame⟩
  | _ => exact Or.inl ⟨rfl, fun _ h => nomatch h⟩

theorem tried_perform {entered : Option Profile} {tried : List Deed} {gone : List Profile}
    {stored : List PersistedState} {m' : Manager}
    (hdoes : m.Does m' (turnDeeds entered tried gone stored)) :
    (callsSince m.history m'.history).filterMap Call.tried? = tried.filterMap Deed.tried? := by
  rw [hdoes.filterMap_eq Call.tried?_eq]
  exact filterMap_turnDeeds_tried (fun _ => rfl) (fun _ => rfl) fun _ => rfl

/-- **An operation gives at most one number**, the next one, and counts on: to a profile that it
    imports, or to one that it hands to the secure store and enters if the store takes it. -/
theorem given_cases {tried : List Deed} {gone : List Profile} {stored : List PersistedState}
    (hr : m.registry.Keyed) (turn : m.registry.Turn op (m.entered? p op) tried gone stored
      (m.perform p op).2.registry) :
    (tried = [] ∧ m.entered? p op = none ∧ m.imported? p op = none ∧
      (m.perform p op).2.registry.nextIndex = m.registry.nextIndex) ∨
    ∃ q, q.index = m.registry.nextIndex ∧
      (m.perform p op).2.registry.nextIndex = m.registry.nextIndex + 1 ∧
      ((tried = [] ∧ m.entered? p op = some q ∧
        ∃ q', m.imported? p op = some q' ∧ q.SameInstallation q') ∨
      ∃ accepted, tried = [.install q accepted] ∧ m.imported? p op = none ∧
        m.entered? p op = if accepted then some q else none) := by
  obtain ⟨r₁, move, stays⟩ := turn.move
  rw [stays.nextIndex]
  have himport := imported?_cases (p := p) hr op
  rcases move.number_cases with
    ⟨htried, hnone, hnext⟩ |
      ⟨q, hq, hnext, ⟨htried, hentered, entry, rfl⟩ | ⟨accepted, htried, hentered, hadd⟩⟩
  · rcases himport with ⟨himported, -⟩ | ⟨q, q', entry, -, hq, -⟩
    · exact Or.inl ⟨htried, hnone, himported, hnext⟩
    · rw [hnone] at hq
      cases hq
  · rcases himport with ⟨-, hnone⟩ | ⟨e, q', -, -, he, himported, hsame⟩
    · rw [hnone entry rfl] at hentered
      cases hentered
    · rw [he, Option.some.injEq] at hentered
      subst hentered
      exact Or.inr ⟨e, hq, hnext, Or.inl ⟨htried, he, q', himported, hsame⟩⟩
  · rcases himport with ⟨himported, -⟩ | ⟨e, q', entry, hop, -⟩
    · exact Or.inr ⟨q, hq, hnext, Or.inr ⟨accepted, htried, himported, hentered⟩⟩
    · exact absurd hop (hadd entry)

theorem numbersGiven_cases (hr : m.registry.Keyed) (hop : ∀ s, op ≠ .restore s) :
    let m' := (m.perform p op).2
    (m.numbersGiven p op = [] ∧ m'.registry.nextIndex = m.registry.nextIndex) ∨
      (m.numbersGiven p op = [m.registry.nextIndex] ∧
        m'.registry.nextIndex = m.registry.nextIndex + 1) := by
  intro m'
  obtain ⟨tried, stored, turn, does⟩ := turn_retires (p := p) hr hop
  unfold numbersGiven
  rw [tried_perform does]
  rcases given_cases hr turn with
    ⟨rfl, -, himported, hnext⟩ |
      ⟨q, hq, hnext, ⟨rfl, -, q', himported, hsame⟩ | ⟨accepted, rfl, himported, -⟩⟩ <;>
    rw [himported]
  · exact Or.inl ⟨rfl, hnext⟩
  · rw [← hq, ← hsame.index]
    exact Or.inr ⟨rfl, hsame.index ▸ hq ▸ hnext⟩
  · rw [← hq]
    exact Or.inr ⟨rfl, hq ▸ hnext⟩

/-! ### Runs -/

theorem numbersGiven_restore (m : Manager) (p : Platform) (s : PersistedState) :
    m.numbersGiven p (.restore s) = [] := by
  have hdoes : m.Does (m.perform p (.restore s)).2 (turnDeeds none [] [] []) := does_restore m s
  unfold numbersGiven
  rw [tried_perform hdoes]
  rfl

/-- A step that does not wrap around gives numbers from the next one before it on, below the
    next one after it. -/
theorem numbersGiven_between (hr : m.registry.Keyed) (hlast : NumbersLast m (p, op)) :
    let m' := (m.perform p op).2
    m.registry.nextIndex ≤ m'.registry.nextIndex ∧
      (m.numbersGiven p op = [] ∨ m.numbersGiven p op = [m.registry.nextIndex] ∧
        m.registry.nextIndex < m'.registry.nextIndex) := by
  intro m'
  rcases op.eq_restore_or with ⟨s, rfl⟩ | hop
  · have hrestored : m'.registry = m.registry.restore s := restore_registry m s
    rw [hrestored]
    exact ⟨Registry.nextIndex_le_restore m.registry s, Or.inl (numbersGiven_restore m p s)⟩
  · rcases numbersGiven_cases (p := p) hr hop with ⟨hnil, hnext⟩ | ⟨hone, hnext⟩
    · exact ⟨hnext ▸ UInt64.le_refl _, Or.inl hnil⟩
    · have hne := Registry.ne_lastIndex_of_add_one (hlast.of_ne_restore hop) hnext
      have hlt : m.registry.nextIndex < m'.registry.nextIndex := hnext ▸ Registry.lt_add_one hne
      exact ⟨UInt64.le_of_lt hlt, Or.inr ⟨hone, hlt⟩⟩

theorem nextIndex_le_run {steps : List Step} (hr : m.registry.Keyed)
    (hlast : Along NumbersLast m steps) :
    m.registry.nextIndex ≤ (m.run steps).registry.nextIndex := by
  induction steps generalizing m with
  | nil => exact UInt64.le_refl _
  | cons s rest ih =>
    obtain ⟨p, op⟩ := s
    have hstep := (numbersGiven_between hr hlast.1).1
    exact UInt64.le_trans hstep (ih (keyed_perform hr op) hlast.2)

/-- **The numbers of a run increase.**  The induction is on the run: what a step gives is below
    the next number after it, and the rest of the run gives none below that. -/
theorem numbersAlong_increase {steps : List Step} (hr : m.registry.Keyed)
    (hlast : Along NumbersLast m steps) :
    (m.numbersAlong steps).Pairwise (· < ·) ∧
      ∀ n ∈ m.numbersAlong steps, m.registry.nextIndex ≤ n := by
  induction steps generalizing m with
  | nil => exact ⟨List.Pairwise.nil, fun _ h => nomatch h⟩
  | cons s rest ih =>
    obtain ⟨p, op⟩ := s
    obtain ⟨hle, hgiven⟩ := numbersGiven_between hr hlast.1
    obtain ⟨hincrease, hfrom⟩ := ih (keyed_perform hr op) hlast.2
    rw [numbersAlong]
    rcases hgiven with hnil | ⟨hone, hlt⟩
    · rw [hnil, List.nil_append]
      exact ⟨hincrease, fun n hn => UInt64.le_trans hle (hfrom n hn)⟩
    · rw [hone, List.singleton_append]
      refine ⟨List.pairwise_cons.2 ⟨fun n hn => ?_, hincrease⟩, fun n hn => ?_⟩
      · exact UInt64.lt_of_lt_of_le hlt (hfrom n hn)
      · rcases List.mem_cons.1 hn with rfl | hn
        · exact UInt64.le_refl _
        · exact UInt64.le_trans hle (hfrom n hn)

/-- A registry in which numbers are below the next one and no two are the same stays so. -/
theorem distinct_run {steps : List Step} (hlast : Along NumbersLast m steps)
    (hrestored : ∀ p state, (p, .restore state) ∈ steps → (state.profiles.map (·.index)).Nodup)
    (hr : m.registry.Keyed) (hnumbered : m.registry.Numbered) (hdistinct : m.registry.Distinct) :
    (m.run steps).registry.Distinct := by
  induction steps generalizing m with
  | nil => exact hdistinct
  | cons s rest ih =>
    obtain ⟨p, op⟩ := s
    have hstep : (m.perform p op).2.registry.Distinct := by
      rcases op.eq_restore_or with ⟨state, rfl⟩ | hop
      · have hregistry : (m.perform p (.restore state)).2.registry = m.registry.restore state :=
          restore_registry m state
        rw [hregistry]
        exact Registry.distinct_restore _ (hrestored p state List.mem_cons_self)
      · obtain ⟨tried, stored, turn, -⟩ := turn_retires (p := p) hr hop
        exact turn.distinct hr hnumbered hdistinct
    exact ih hlast.2 (fun p' state h => hrestored p' state (List.mem_cons_of_mem _ h))
      (keyed_perform hr op) (numbered_perform op hlast.1 hnumbered) hstep

/-- **A number is given once.**  In a run that restores only states without two profiles of one
    number, and in which counting does not reach the end of the numbers: the next number never
    falls; the numbers that are given increase, and those that are given after a state was
    restored are above every number in it; and at the end every profile has a number below the
    next one, which no other profile has. -/
theorem numbers_are_fresh {settings : Settings} {matchers : Matchers} {steps : List Step}
    (hlast : Along NumbersLast (new settings matchers) steps)
    (hrestored : ∀ p state, (p, .restore state) ∈ steps →
      (state.profiles.map (·.index)).Nodup) :
    let start := new settings matchers
    let m := start.run steps
    (∀ before after, steps = before ++ after →
      (start.run before).registry.nextIndex ≤ m.registry.nextIndex) ∧
    (start.numbersAlong steps).Pairwise (· < ·) ∧
    (∀ before p state after, steps = before ++ (p, .restore state) :: after →
      ∀ n ∈ ((start.run before).perform p (.restore state)).2.numbersAlong after,
        ∀ q ∈ state.profiles, q.index < n) ∧
    (∀ fqdn q, m.registry.get? fqdn = some q → q.index < m.registry.nextIndex) ∧
    ∀ fqdn fqdn' q q', m.registry.get? fqdn = some q → m.registry.get? fqdn' = some q' →
      fqdn ≠ fqdn' → q.index ≠ q'.index ∧ q.credentialAlias ≠ q'.credentialAlias := by
  intro start m
  have hkeyed : start.registry.Keyed := Registry.keyed_empty
  have hnumbered : start.registry.Numbered := Registry.numbered_empty
  refine ⟨?_, (numbersAlong_increase hkeyed hlast).1, ?_, numbered_run hlast hnumbered, ?_⟩
  · rintro before after rfl
    have hafter := (Along.append_iff.1 hlast).2
    have hle := nextIndex_le_run (keyed_run before hkeyed) hafter
    rwa [← run_append] at hle
  · rintro before p state after rfl n hn q hq
    obtain ⟨hrestore, hafter⟩ := (Along.append_iff.1 hlast).2
    have hr := keyed_perform (p := p) (keyed_run before hkeyed) (.restore state)
    have hregistry : ((start.run before).perform p (.restore state)).2.registry =
        (start.run before).registry.restore state := restore_registry _ state
    have hfrom := (numbersAlong_increase hr hafter).2 n hn
    rw [hregistry] at hfrom
    exact UInt64.lt_of_lt_of_le (Registry.index_lt_restore _ hq (hrestore q hq)) hfrom
  · have hdistinct : m.registry.Distinct :=
      distinct_run hlast hrestored hkeyed hnumbered Registry.distinct_empty
    intro fqdn fqdn' q q' hget hget' hne
    have hindex : q.index ≠ q'.index := fun h => hne (hdistinct _ _ _ _ hget hget' h)
    exact ⟨hindex, fun h => hindex (Profile.index_eq_of_alias_eq h)⟩

def storedAhead : PersistedState :=
  { profiles := [.new (.ofSim "b.example") 7 ⟨11, "mail"⟩ .saved .sim], nextIndex := 3 }

/-- An installation fails and is tried again, a state is restored, and an entry is imported. -/
def restless : List Step :=
  [(.locked, .add (some (.ofSim "a.example")) ⟨10, "shop"⟩ false),
    (.obliging, .add (some (.ofSim "a.example")) ⟨10, "shop"⟩ false),
    (.obliging, .restore storedAhead),
    (.obliging, .importLegacy (.ofSim "c.example"))]

theorem numbers_are_fresh_restless :
    let start := new .default .default
    let m := start.run restless
    start.numbersAlong restless = [0, 1, 8] ∧ (start.numbersAlong restless).Pairwise (· < ·) ∧
      ∀ q q', m.registry.get? "b.example" = some q → m.registry.get? "c.example" = some q' →
        q.credentialAlias ≠ q'.credentialAlias := by
  intro start m
  have hlast : Along NumbersLast start restless := by
    refine ⟨fun h => absurd h (by decide), fun h => absurd h (by decide), ?_,
      fun h => absurd h (by decide), trivial⟩
    intro q hq
    rw [List.mem_singleton.1 hq]
    decide
  have hrestored : ∀ p state, (p, Operation.restore state) ∈ restless →
      (state.profiles.map (·.index)).Nodup := by
    intro p state h
    simp only [restless, List.mem_cons, Prod.mk.injEq, reduceCtorEq, and_false, false_or,
      Operation.restore.injEq, List.not_mem_nil, or_false] at h
    rw [h.2]
    decide
  obtain ⟨-, hincrease, -, -, hdistinct⟩ := numbers_are_fresh hlast hrestored
  refine ⟨by decide, hincrease, fun q q' hget hget' => ?_⟩
  exact (hdistinct _ _ q q' hget hget' (by decide)).2

end Manager

end Hotspot
