/-
  Hotspot/Proofs/Reordering.lean
  ==============================
  **The order of the reports that wait does not matter, up to three exceptions.**

  Each part of the state follows a part of the queue and nothing else.  The profiles, their
  watches and the calls about them follow the reports about profiles; the request and the
  hold-off of an access point follow the completions for it; what is remembered under a key
  follows the first completions of the access points whose requests are open under that key.
  One induction says so for any two states that agree on such a part (`handleAll_filter`).  A
  queue that is reordered within these bounds (`Reordering`) therefore leads to the same state.

  The count of dropped answers belongs to no such part.  It is balanced instead: every answer in
  the queue is taken or dropped, and those that are taken are first completions
  (`dropped_handleAll`).
-/
import Hotspot.Proofs.Completions
import Hotspot.Proofs.Exchanges

namespace Hotspot

/-! ### Queues -/

/-- Of the completions in a queue, the first one for each access point, in their order. -/
def Event.firsts : List Event → List Event
  | [] => []
  | e :: rest =>
    match e.completes? with
    | none => firsts rest
    | some bssid => e :: (firsts rest).filter fun e' => e'.completes? ≠ some bssid

namespace Event

variable {e : Event} {bssid : MacAddress} {l l' : List Event}

theorem firsts_cons_of_completes (h : e.completes? = some bssid) (rest : List Event) :
    firsts (e :: rest) = e :: (firsts rest).filter fun e' => e'.completes? ≠ some bssid := by
  simp only [firsts, h]

theorem firsts_cons_of_profiles (h : e.completes? = none) (rest : List Event) :
    firsts (e :: rest) = firsts rest := by
  simp only [firsts, h]

theorem completes_of_mem_firsts (h : e ∈ firsts l) : ∃ bssid, e.completes? = some bssid := by
  induction l with
  | nil => cases h
  | cons e' rest ih =>
    cases hkind : e'.completes? with
    | none =>
      rw [firsts_cons_of_profiles hkind] at h
      exact ih h
    | some bssid =>
      rw [firsts_cons_of_completes hkind, List.mem_cons] at h
      rcases h with rfl | h
      · exact ⟨bssid, hkind⟩
      · exact ih (List.mem_filter.1 h).1

theorem mem_of_mem_firsts (h : e ∈ firsts l) : e ∈ l := by
  induction l with
  | nil => cases h
  | cons e' rest ih =>
    cases hkind : e'.completes? with
    | none =>
      rw [firsts_cons_of_profiles hkind] at h
      exact List.mem_cons_of_mem _ (ih h)
    | some bssid =>
      rw [firsts_cons_of_completes hkind, List.mem_cons] at h
      rcases h with rfl | h
      · exact List.mem_cons_self
      · exact List.mem_cons_of_mem _ (ih (List.mem_filter.1 h).1)

/-- The first completion for an access point is the first of all completions for it. -/
theorem filter_firsts (bssid : MacAddress) (l : List Event) :
    (firsts l).filter (·.completes? = some bssid) =
      (l.filter (·.completes? = some bssid)).take 1 := by
  induction l with
  | nil => rfl
  | cons e rest ih =>
    cases hkind : e.completes? with
    | none =>
      rw [firsts_cons_of_profiles hkind, ih, List.filter_cons_of_neg (by simp [hkind])]
    | some b =>
      rw [firsts_cons_of_completes hkind]
      by_cases hb : b = bssid
      · subst hb
        rw [List.filter_cons_of_pos (by simp [hkind]), List.filter_cons_of_pos (by simp [hkind]),
          List.take_succ_cons, List.take_zero, List.filter_filter]
        simp
      · rw [List.filter_cons_of_neg (by simp [hkind, hb]),
          List.filter_cons_of_neg (by simp [hkind, hb]), List.filter_filter, ← ih]
        refine List.filter_congr fun e' _ => ?_
        by_cases he' : e'.completes? = some bssid
        · simp [he', Ne.symm hb]
        · simp [he']

/-- Queues with the same completions for each access point have the same first completions. -/
theorem firsts_perm (h : ∀ bssid, l'.filter (·.completes? = some bssid) =
    l.filter (·.completes? = some bssid)) : (firsts l').Perm (firsts l) := by
  rw [List.perm_iff_count]
  intro e
  cases hkind : e.completes? with
  | none =>
    have habsent : ∀ l, e ∉ firsts l := by
      intro l hmem
      obtain ⟨bssid, hbssid⟩ := completes_of_mem_firsts hmem
      rw [hkind] at hbssid
      cases hbssid
    rw [List.count_eq_zero_of_not_mem (habsent l'), List.count_eq_zero_of_not_mem (habsent l)]
  | some bssid =>
    have hcount : ∀ l, (firsts l).count e =
        ((l.filter (·.completes? = some bssid)).take 1).count e := by
      intro l
      rw [← filter_firsts, List.count_filter (by simp [hkind])]
    rw [hcount, hcount, h bssid]

end Event

/-! ### States that agree on the profiles -/

def History.undropped (h : History) : History :=
  h.filter fun c => c ≠ .increment .responseDropped

/-- A platform whose answers about profiles and applications do not depend on how many answers of
    access points were counted as dropped. -/
structure Platform.IgnoresDrops (p : Platform) : Prop where
  uninstall : ∀ h, p.uninstall h = p.uninstall h.undropped
  persist : ∀ h, p.persist h = p.persist h.undropped
  isAuthorized : ∀ h, p.isAuthorized h = p.isAuthorized h.undropped
  connectedDomain : ∀ h, p.connectedDomain h = p.connectedDomain h.undropped

namespace Manager

/-- Two states with the same profiles and watches, and the same calls up to dropped answers. -/
structure Alike (m₁ m₂ : Manager) : Prop where
  registry : m₁.registry = m₂.registry
  watches : m₁.watches = m₂.watches
  history : m₁.history.undropped = m₂.history.undropped

namespace Alike

variable {m₁ m₂ : Manager} {p : Platform}

theorem refl (m : Manager) : m.Alike m := ⟨rfl, rfl, rfl⟩

theorem answer {α : Type} (h : m₁.Alike m₂) {ask : History → α}
    (hask : ∀ h, ask h = ask h.undropped) : ask m₁.history = ask m₂.history := by
  rw [hask, h.history, ← hask]

theorem record (h : m₁.Alike m₂) (c : Call) : (m₁.record c).Alike (m₂.record c) := by
  refine ⟨h.registry, h.watches, ?_⟩
  have hcons : ∀ h : History, History.undropped (c :: h) = History.undropped [c] ++ h.undropped :=
    fun h => List.filter_append [c] h
  rw [record_history, record_history, hcons m₁.history, hcons m₂.history, h.history]

theorem setRegistry (h : m₁.Alike m₂) (r : Registry) :
    Alike { m₁ with registry := r } { m₂ with registry := r } :=
  ⟨rfl, h.watches, h.history⟩

theorem setWatches (h : m₁.Alike m₂) (watches : WatchList) :
    Alike { m₁ with watches } { m₂ with watches } :=
  ⟨h.registry, rfl, h.history⟩

theorem stopWatching (h : m₁.Alike m₂) (package : String) :
    (m₁.stopWatching package).Alike (m₂.stopWatching package) := by
  unfold Manager.stopWatching
  rw [h.watches]
  cases m₂.watches.get? package with
  | none => exact h
  | some uid => exact (h.setWatches _).record _

theorem disconnectFrom (h : m₁.Alike m₂) (domain : Option String) (removed : List Profile) :
    (m₁.disconnectFrom domain removed).Alike (m₂.disconnectFrom domain removed) := by
  unfold Manager.disconnectFrom
  cases domain with
  | none => exact h
  | some domain =>
    dsimp only
    split
    · exact h.record _
    · exact h

section Answers

variable (hp : p.IgnoresDrops)
include hp

theorem persist (h : m₁.Alike m₂) : (m₁.persist p).Alike (m₂.persist p) := by
  unfold Manager.persist
  rw [h.answer hp.persist, h.registry]
  exact h.record _

theorem retireCounted (h : m₁.Alike m₂) (q : Profile) :
    (m₁.retireCounted p q).Alike (m₂.retireCounted p q) := by
  have hcounted := h.record (.increment .uninstallAttempted)
  have hanswer := hcounted.answer hp.uninstall
  unfold Manager.retireCounted retire uninstall increment
  rw [hanswer]
  exact ((hcounted.record _).record _).record _

theorem removeSavedBy (h : m₁.Alike m₂) (package : String) :
    (m₁.removeSavedBy p package).1 = (m₂.removeSavedBy p package).1 ∧
      (m₁.removeSavedBy p package).2.Alike (m₂.removeSavedBy p package).2 := by
  have hretired : ∀ (removed : List Profile) {m₁ m₂ : Manager}, m₁.Alike m₂ →
      (removed.foldl (fun m q => m.retireCounted p q) m₁).Alike
        (removed.foldl (fun m q => m.retireCounted p q) m₂) := by
    intro removed
    induction removed with
    | nil => exact id
    | cons q rest ih => exact fun h => ih (h.retireCounted hp q)
  have hall := hretired (m₂.registry.savedBy package)
    (h.setRegistry (m₂.registry.eraseSavedBy package))
  unfold Manager.removeSavedBy
  rw [h.registry]
  refine ⟨rfl, ?_⟩
  dsimp only
  split
  · exact hall
  · exact hall.persist hp

theorem authorizationChanged (h : m₁.Alike m₂) (package : String) :
    (m₁.authorizationChanged p package).2.Alike (m₂.authorizationChanged p package).2 := by
  unfold Manager.authorizationChanged
  rw [h.watches]
  cases m₂.watches.get? package with
  | none => exact h
  | some uid =>
    have hasked := h.record (.isAuthorized { uid, package } false)
    simp only [Manager.isAuthorized, Manager.connectedDomain, h.answer hp.isAuthorized]
    cases p.isAuthorized m₂.history { uid, package } with
    | true => exact h.record _
    | false =>
      simp only [hasked.answer hp.connectedDomain]
      obtain ⟨hremoved, hstate⟩ := (hasked.record (.connectedDomain (p.connectedDomain
        (m₂.record (.isAuthorized { uid, package } false)).history))).removeSavedBy hp package
      rw [hremoved]
      exact (hstate.stopWatching package).disconnectFrom _ _

theorem networkConnected (h : m₁.Alike m₂) (fqdn : String) :
    (m₁.networkConnected p fqdn).2.Alike (m₂.networkConnected p fqdn).2 := by
  unfold Manager.networkConnected
  rw [h.registry]
  cases m₂.registry.get? fqdn with
  | none => exact h
  | some q =>
    dsimp only
    split
    · exact h
    · exact (h.setRegistry _).persist hp

/-- **What a report about profiles does depends on the profiles alone.** -/
theorem handle (h : m₁.Alike m₂) {e : Event} (he : e.isOfProfiles = true) :
    (m₁.handle p e).Alike (m₂.handle p e) := by
  cases e with
  | fetchResult b es => cases he
  | fetchFailure b => cases he
  | authorizationChanged package => exact h.authorizationChanged hp package
  | networkConnected fqdn => exact h.networkConnected hp fqdn

end Answers

/-- A completion leaves the profiles alone. -/
theorem handle_left (h : m₁.Alike m₂) {e : Event} (he : e.isOfProfiles = false) :
    (m₁.handle p e).Alike m₂ := by
  obtain ⟨bssid, hkind⟩ := Option.isSome_iff_exists.1 (Option.isNone_eq_false_iff.1 he)
  obtain ⟨hregistry, hwatches⟩ := profiles_of_completes (m := m₁) (p := p) hkind
  refine ⟨hregistry.trans h.registry, hwatches.trans h.watches, ?_⟩
  rw [history_of_completes hkind, ← h.history]
  split <;> rfl

end Alike

/-! ### Parts of the state, parts of the queue -/

variable {m m₁ m₂ : Manager} {p : Platform} {l l' : List Event}

/-- **A part of the state follows a part of the queue.**  `R` says that two states agree on the
    part; a report that is not about it leaves the agreement, one that is about it keeps it when
    both states get it. -/
theorem handleAll_filter {R : Manager → Manager → Prop} {about : Event → Bool}
    (other : ∀ m₁ m₂ e, R m₁ m₂ → about e = false → R (m₁.handle p e) m₂)
    (own : ∀ m₁ m₂ e, R m₁ m₂ → about e = true → R (m₁.handle p e) (m₂.handle p e))
    (l : List Event) (h : R m₁ m₂) : R (m₁.handleAll p l) (m₂.handleAll p (l.filter about)) := by
  induction l generalizing m₁ m₂ with
  | nil => exact h
  | cons e rest ih =>
    cases habout : about e with
    | false =>
      rw [List.filter_cons_of_neg (by simp [habout])]
      exact ih (other m₁ m₂ e h habout)
    | true =>
      rw [List.filter_cons_of_pos habout]
      exact ih (own m₁ m₂ e h habout)

/-- Two queues with the same reports about a part lead to states that agree on the part. -/
theorem handleAll_congr {R : Manager → Manager → Prop} {about : Event → Bool}
    (other : ∀ m₁ m₂ e, R m₁ m₂ → about e = false → R (m₁.handle p e) m₂)
    (own : ∀ m₁ m₂ e, R m₁ m₂ → about e = true → R (m₁.handle p e) (m₂.handle p e))
    (refl : R m m) (euclidean : ∀ {m₁ m₂ m₃}, R m₁ m₃ → R m₂ m₃ → R m₁ m₂)
    (h : l'.filter about = l.filter about) : R (m.handleAll p l') (m.handleAll p l) := by
  have hleft := handleAll_filter (p := p) other own l' refl
  rw [h] at hleft
  exact euclidean hleft (handleAll_filter other own l refl)

theorem alike_handleAll (hp : p.IgnoresDrops)
    (h : l'.filter (·.isOfProfiles) = l.filter (·.isOfProfiles)) :
    (m.handleAll p l').Alike (m.handleAll p l) := by
  apply handleAll_congr (R := Alike) _ _ (.refl m) _ h
  · intro m₁ m₂ e halike he
    exact halike.handle_left he
  · intro m₁ m₂ e halike he
    exact halike.handle hp he
  · intro m₁ m₂ m₃ h₁ h₂
    exact ⟨h₁.registry.trans h₂.registry.symm, h₁.watches.trans h₂.watches.symm,
      h₁.history.trans h₂.history.symm⟩

/-- The request and the hold-off of an access point follow the completions for it. -/
theorem request_handleAll {bssid : MacAddress}
    (h : l'.filter (·.completes? = some bssid) = l.filter (·.completes? = some bssid)) :
    (m.handleAll p l').requests.pending.get? bssid =
        (m.handleAll p l).requests.pending.get? bssid ∧
      (m.handleAll p l').requests.holdOffs.get? bssid =
        (m.handleAll p l).requests.holdOffs.get? bssid := by
  apply handleAll_congr (R := fun m₁ m₂ =>
    m₁.requests.pending.get? bssid = m₂.requests.pending.get? bssid ∧
      m₁.requests.holdOffs.get? bssid = m₂.requests.holdOffs.get? bssid) _ _ ⟨rfl, rfl⟩ _ h
  · intro m₁ m₂ e hsame he
    cases hkind : e.completes? with
    | none => rwa [(handle_of_profiles (Option.isNone_iff_eq_none.2 hkind)).1]
    | some b =>
      have hne : bssid ≠ b := by
        rintro rfl
        simp [hkind] at he
      rw [get?_pending_handle hkind, get?_holdOffs_handle hkind, if_neg hne,
        if_neg fun hc => hne hc.1]
      exact hsame
  · intro m₁ m₂ e hsame he
    have hkind : e.completes? = some bssid := of_decide_eq_true he
    rw [get?_pending_handle hkind, get?_pending_handle hkind, get?_holdOffs_handle hkind,
      get?_holdOffs_handle hkind, hsame.1, hsame.2]
    exact ⟨rfl, rfl⟩
  · intro m₁ m₂ m₃ h₁ h₂
    exact ⟨h₁.1.trans h₂.1.symm, h₁.2.trans h₂.2.symm⟩

/-! ### What is remembered -/

def completedKey? (m : Manager) (e : Event) : Option IdentityKey :=
  e.completes?.bind m.openKey?

theorem openKey?_report (e : Event) (bssid : MacAddress) :
    (m.handle p e).openKey? bssid =
      if e.completes? = some bssid then none else m.openKey? bssid := by
  cases hkind : e.completes? with
  | none =>
    rw [openKey?, (handle_of_profiles (Option.isNone_iff_eq_none.2 hkind)).1,
      if_neg (Option.some_ne_none bssid).symm, openKey?]
  | some b =>
    rw [openKey?_handle hkind]
    simp only [Option.some.injEq, eq_comm]

theorem get?_cache_report (e : Event) (key : IdentityKey) :
    (m.handle p e).cache.get? key =
      if m.completedKey? e = some key then
        (e.answer?.map fun es => { capturedAt := p.now, elements := es }).or (m.cache.get? key)
      else m.cache.get? key := by
  unfold completedKey?
  cases hkind : e.completes? with
  | none =>
    rw [(handle_of_profiles (Option.isNone_iff_eq_none.2 hkind)).2, Option.bind_none,
      if_neg (Option.some_ne_none key).symm]
  | some bssid => rw [get?_cache_handle hkind, Option.bind_some]

/-- Two states with the same open requests, by their keys, and the same metadata. -/
structure SameTraffic (m₁ m₂ : Manager) : Prop where
  openKey : ∀ bssid, m₁.openKey? bssid = m₂.openKey? bssid
  cache : m₁.cache = m₂.cache

namespace SameTraffic

theorem refl (m : Manager) : m.SameTraffic m := ⟨fun _ => rfl, rfl⟩

theorem trans {m₃ : Manager} (h : m₁.SameTraffic m₂) (h' : m₂.SameTraffic m₃) :
    m₁.SameTraffic m₃ :=
  ⟨fun bssid => (h.openKey bssid).trans (h'.openKey bssid), h.cache.trans h'.cache⟩

/-- A report that completes no open request changes nothing. -/
theorem of_idle {e : Event} (h : m.completedKey? e = none) : (m.handle p e).SameTraffic m := by
  refine ⟨fun bssid => ?_, OrderedMap.ext_get? fun key => ?_⟩
  · rw [openKey?_report]
    by_cases hkind : e.completes? = some bssid
    · rw [completedKey?, hkind, Option.bind_some] at h
      rw [if_pos hkind, h]
    · rw [if_neg hkind]
  · rw [get?_cache_report, h, if_neg (Option.some_ne_none key).symm]

theorem of_profiles {e : Event} (he : e.completes? = none) : (m.handle p e).SameTraffic m :=
  of_idle (by rw [completedKey?, he, Option.bind_none])

theorem handle (h : m₁.SameTraffic m₂) (e : Event) :
    (m₁.handle p e).SameTraffic (m₂.handle p e) := by
  have hcompleted : m₁.completedKey? e = m₂.completedKey? e := by
    rw [completedKey?, completedKey?, funext h.openKey]
  refine ⟨fun bssid => ?_, OrderedMap.ext_get? fun key => ?_⟩
  · rw [openKey?_report, openKey?_report, h.openKey]
  · rw [get?_cache_report, get?_cache_report, hcompleted, h.cache]

/-- **Of the completions for an access point only the first has a bearing on the traffic.** -/
theorem handleAll_firsts (h : m₁.SameTraffic m₂) (l : List Event) :
    (m₁.handleAll p l).SameTraffic (m₂.handleAll p (Event.firsts l)) := by
  induction l generalizing m₁ m₂ with
  | nil => exact h
  | cons e rest ih =>
    cases hkind : e.completes? with
    | none =>
      rw [Event.firsts_cons_of_profiles hkind]
      exact ih ((of_profiles hkind).trans h)
    | some bssid =>
      rw [Event.firsts_cons_of_completes hkind]
      refine (ih (h.handle (p := p) e)).trans ?_
      -- from here on the request is closed, and the later completions of it can be left out
      have hclosed : (m₂.handle p e).openKey? bssid = none := by rw [openKey?_report, if_pos hkind]
      refine (handleAll_filter (R := fun m₁ m₂ => m₁.SameTraffic m₂ ∧ m₁.openKey? bssid = none)
        ?_ ?_ (Event.firsts rest) ⟨.refl _, hclosed⟩).1
      · intro m₁ m₂ e' hsame he'
        have hkind' : e'.completes? = some bssid := by simpa using he'
        have hidle : m₁.completedKey? e' = none := by
          rw [completedKey?, hkind', Option.bind_some, hsame.2]
        exact ⟨(of_idle hidle).trans hsame.1, by rw [openKey?_report, if_pos hkind']⟩
      · intro m₁ m₂ e' hsame _
        exact ⟨hsame.1.handle e', by rw [openKey?_report, hsame.2, ite_self]⟩

end SameTraffic

/-- Every request that is open in a state was open, under the same key, in an earlier one. -/
def OpenSince (earlier m : Manager) : Prop :=
  ∀ bssid key, m.openKey? bssid = some key → earlier.openKey? bssid = some key

theorem OpenSince.handle {earlier : Manager} (h : earlier.OpenSince m) (e : Event) :
    earlier.OpenSince (m.handle p e) := by
  intro bssid key hkey
  rw [openKey?_report] at hkey
  split at hkey
  · cases hkey
  · exact h bssid key hkey

/-- Two states after a common earlier one, with the same under a key: what is remembered, and which
    of the requests are open that were made for it. -/
structure AlikeUnder (key : IdentityKey) (earlier m₁ m₂ : Manager) : Prop where
  cache : m₁.cache.get? key = m₂.cache.get? key
  openKey : ∀ bssid, earlier.openKey? bssid = some key → m₁.openKey? bssid = m₂.openKey? bssid
  left : earlier.OpenSince m₁
  right : earlier.OpenSince m₂

namespace AlikeUnder

variable {key : IdentityKey} {earlier : Manager}

theorem refl (m : Manager) : AlikeUnder key m m m :=
  ⟨rfl, fun _ _ => rfl, fun _ _ => id, fun _ _ => id⟩

theorem euclidean {m₃ : Manager} (h : AlikeUnder key earlier m₁ m₃)
    (h' : AlikeUnder key earlier m₂ m₃) : AlikeUnder key earlier m₁ m₂ where
  cache := h.cache.trans h'.cache.symm
  openKey bssid hbssid := (h.openKey bssid hbssid).trans (h'.openKey bssid hbssid).symm
  left := h.left
  right := h'.left

/-- A report that completes no request for the key. -/
theorem handle_left (h : AlikeUnder key earlier m₁ m₂) {e : Event}
    (he : earlier.completedKey? e ≠ some key) : AlikeUnder key earlier (m₁.handle p e) m₂ where
  cache := by
    rw [get?_cache_report, if_neg, h.cache]
    intro hcompleted
    obtain ⟨bssid, hkind, hkey⟩ := Option.bind_eq_some_iff.1 hcompleted
    exact he (Option.bind_eq_some_iff.2 ⟨bssid, hkind, h.left bssid key hkey⟩)
  openKey bssid hbssid := by
    rw [openKey?_report, if_neg, h.openKey bssid hbssid]
    exact fun hkind => he (Option.bind_eq_some_iff.2 ⟨bssid, hkind, hbssid⟩)
  left := h.left.handle e
  right := h.right

/-- A report that completes a request for the key. -/
theorem handle (h : AlikeUnder key earlier m₁ m₂) {e : Event}
    (he : earlier.completedKey? e = some key) :
    AlikeUnder key earlier (m₁.handle p e) (m₂.handle p e) where
  cache := by
    obtain ⟨bssid, hkind, hkey⟩ := Option.bind_eq_some_iff.1 he
    have hsame : m₁.completedKey? e = m₂.completedKey? e := by
      rw [completedKey?, completedKey?, hkind]
      exact h.openKey bssid hkey
    rw [get?_cache_report, get?_cache_report, hsame, h.cache]
  openKey bssid hbssid := by
    rw [openKey?_report, openKey?_report, h.openKey bssid hbssid]
  left := h.left.handle e
  right := h.right.handle e

end AlikeUnder

/-- **What is remembered under a key follows the first completions of the requests for it.** -/
theorem get?_cache_handleAll {key : IdentityKey}
    (h : (Event.firsts l').filter (m.completedKey? · = some key) =
      (Event.firsts l).filter (m.completedKey? · = some key)) :
    (m.handleAll p l').cache.get? key = (m.handleAll p l).cache.get? key := by
  rw [((SameTraffic.refl m).handleAll_firsts l').cache,
    ((SameTraffic.refl m).handleAll_firsts l).cache]
  -- requests are only closed, so the key of an open request is the one it had at first
  have halike : AlikeUnder key m (m.handleAll p (Event.firsts l'))
      (m.handleAll p (Event.firsts l)) := by
    apply handleAll_congr (R := AlikeUnder key m) _ _ (.refl m) .euclidean h
    · exact fun m₁ m₂ e halike he => halike.handle_left (of_decide_eq_false he)
    · exact fun m₁ m₂ e halike he => halike.handle (of_decide_eq_true he)
  exact halike.cache

/-! ### What is dropped -/

theorem unmoved_drops (n : Nat) :
    Unmoved fun m => m.history.count (.increment .responseDropped) = n where
  registry _ _ hm := hm
  call m c hc hm := by
    rw [record_history, List.count_cons_of_ne, hm]
    rintro rfl
    cases hc
  stop m package hm := by
    unfold stopWatching
    split
    · exact hm
    · rw [record_history, List.count_cons_of_ne (by simp)]
      exact hm

def takes (m : Manager) (e : Event) : Bool := e.answer?.isSome && (m.completedKey? e).isSome

/-- An answer is taken or dropped. -/
theorem dropped_handle (m : Manager) (p : Platform) (e : Event) :
    (m.handle p e).history.count (.increment .responseDropped) + (if m.takes e then 1 else 0) =
      m.history.count (.increment .responseDropped) + if e.answer?.isSome then 1 else 0 := by
  unfold takes completedKey?
  cases hkind : e.completes? with
  | none =>
    have hdrops : (m.handle p e).history.count (.increment .responseDropped) =
        m.history.count (.increment .responseDropped) :=
      (unmoved_drops _).handle (Option.isNone_iff_eq_none.2 hkind) rfl
    have hanswer : e.answer?.isSome = false := by cases e <;> first | rfl | cases hkind
    rw [hdrops, hanswer, Bool.false_and]
  | some bssid =>
    rw [history_of_completes hkind, Option.bind_some]
    cases e.answer?.isSome with
    | false => rw [if_neg fun hc => Bool.false_ne_true hc.1, Bool.false_and]
    | true =>
      cases m.openKey? bssid with
      | none =>
        rw [if_pos ⟨rfl, rfl⟩, List.count_cons_self]
        rfl
      | some key =>
        rw [if_neg fun hc => Option.some_ne_none key hc.2]
        rfl

/-- The first completion for an access point closes its request, so no later one is taken. -/
theorem takes_firsts_cons (m : Manager) (p : Platform) (e : Event) (rest : List Event) :
    (Event.firsts (e :: rest)).countP m.takes =
      (Event.firsts rest).countP (m.handle p e).takes + if m.takes e then 1 else 0 := by
  cases hkind : e.completes? with
  | none =>
    have htakes : m.takes e = false := by
      rw [takes, completedKey?, hkind, Option.bind_none, Option.isSome_none, Bool.and_false]
    have hopen : (m.handle p e).openKey? = m.openKey? :=
      funext (SameTraffic.of_profiles hkind).openKey
    have hsame : (m.handle p e).takes = m.takes := by
      funext e'
      rw [takes, takes, completedKey?, completedKey?, hopen]
    rw [Event.firsts_cons_of_profiles hkind, htakes, hsame, if_neg Bool.false_ne_true, Nat.add_zero]
  | some bssid =>
    rw [Event.firsts_cons_of_completes hkind, List.countP_cons, List.countP_filter]
    congr 1
    refine List.countP_congr fun e' _ => ?_
    unfold takes completedKey?
    cases e'.completes? with
    | none => simp
    | some b =>
      rw [Option.bind_some, Option.bind_some, openKey?_handle hkind]
      by_cases hb : b = bssid
      · simp [hb]
      · simp [hb]

/-- **Every answer is taken or dropped.**  The ones that are taken are first completions of open
    requests. -/
theorem dropped_handleAll (m : Manager) (p : Platform) (l : List Event) :
    (m.handleAll p l).history.count (.increment .responseDropped) +
        (Event.firsts l).countP m.takes =
      m.history.count (.increment .responseDropped) + l.countP (·.answer?.isSome) := by
  induction l generalizing m with
  | nil => rfl
  | cons e rest ih =>
    have hhere := dropped_handle m p e
    have hrest := ih (m.handle p e)
    have hall : m.handleAll p (e :: rest) = (m.handle p e).handleAll p rest := rfl
    rw [hall, takes_firsts_cons m p, List.countP_cons]
    omega

/-! ### Reordered queues -/

/-- A queue in another order that keeps the reports about profiles in order, the completions for
    each access point, and, of the access points with open requests under one key, the first
    completions. -/
structure Reordering (m : Manager) (l l' : List Event) : Prop where
  perm : l'.Perm l
  profiles : l'.filter (·.isOfProfiles) = l.filter (·.isOfProfiles)
  completions : ∀ bssid,
    l'.filter (·.completes? = some bssid) = l.filter (·.completes? = some bssid)
  keys : ∀ key, (Event.firsts l').filter (m.completedKey? · = some key) =
    (Event.firsts l).filter (m.completedKey? · = some key)

/-- Only the access points and the keys that the queue is about need to be looked at. -/
theorem reordering_iff : m.Reordering l l' ↔
    l'.Perm l ∧ l'.filter (·.isOfProfiles) = l.filter (·.isOfProfiles) ∧
    (∀ bssid ∈ l.filterMap Event.completes?,
      l'.filter (·.completes? = some bssid) = l.filter (·.completes? = some bssid)) ∧
    ∀ key ∈ l.filterMap m.completedKey?,
      (Event.firsts l').filter (m.completedKey? · = some key) =
        (Event.firsts l).filter (m.completedKey? · = some key) := by
  constructor
  · intro h
    exact ⟨h.perm, h.profiles, fun bssid _ => h.completions bssid, fun key _ => h.keys key⟩
  · rintro ⟨hperm, hprofiles, hcompletions, hkeys⟩
    refine ⟨hperm, hprofiles, fun bssid => ?_, fun key => ?_⟩
    · by_cases hbssid : bssid ∈ l.filterMap Event.completes?
      · exact hcompletions bssid hbssid
      · have hnone : ∀ e ∈ l, ¬ decide (e.completes? = some bssid) = true := by
          intro e he hc
          exact hbssid (List.mem_filterMap.2 ⟨e, he, of_decide_eq_true hc⟩)
        rw [List.filter_eq_nil_iff.2 hnone,
          List.filter_eq_nil_iff.2 fun e he => hnone e (hperm.mem_iff.1 he)]
    · by_cases hkey : key ∈ l.filterMap m.completedKey?
      · exact hkeys key hkey
      · have hnone : ∀ e ∈ l, ¬ decide (m.completedKey? e = some key) = true := by
          intro e he hc
          exact hkey (List.mem_filterMap.2 ⟨e, he, of_decide_eq_true hc⟩)
        rw [List.filter_eq_nil_iff.2 fun e he => hnone e (Event.mem_of_mem_firsts he),
          List.filter_eq_nil_iff.2 fun e he =>
            hnone e (hperm.mem_iff.1 (Event.mem_of_mem_firsts he))]

instance (m : Manager) (l l' : List Event) : Decidable (m.Reordering l l') :=
  decidable_of_iff _ reordering_iff.symm

theorem Reordering.drops (h : m.Reordering l l') :
    (m.handleAll p l').history.count (.increment .responseDropped) =
      (m.handleAll p l).history.count (.increment .responseDropped) := by
  have hbalance := dropped_handleAll m p l
  have hbalance' := dropped_handleAll m p l'
  rw [(Event.firsts_perm h.completions).countP_eq, h.perm.countP_eq] at hbalance'
  omega

theorem Reordering.count (h : m.Reordering l l') (hp : p.IgnoresDrops) (c : Counter) :
    (Telemetry.ofHistory (m.handleAll p l').history).count c =
      (Telemetry.ofHistory (m.handleAll p l).history).count c := by
  rw [Telemetry.count_ofHistory, Telemetry.count_ofHistory]
  by_cases hc : c = .responseDropped
  · rw [hc, h.drops]
  · have hcount : ∀ h : History, h.count (.increment c) = h.undropped.count (.increment c) := by
      intro h
      exact (List.count_filter (by simpa using hc)).symm
    rw [hcount, hcount (m.handleAll p l).history, (alike_handleAll hp h.profiles).history]

/-- The queue is worked off one report at a time.  What the platform sends when it is called for a
    report waits behind the others. -/
inductive Drains (p : Platform) (sends : Call → List Event) :
    Manager → List Event → Nat → Manager → Prop
  | empty (m : Manager) : Drains p sends m [] 0 m
  | next {m m' : Manager} {e : Event} {rest : List Event} {n : Nat} :
      Drains p sends (m.handle p e)
        (rest ++ (callsSince m.history (m.handle p e).history).flatMap sends) n m' →
      Drains p sends m (e :: rest) (n + 1) m'

/-- **Reports send no reports**, as long as the platform sends them only when it is asked for
    metadata. -/
theorem drains_iff {sends : Call → List Event} (hsends : ∀ c, c.isFetch = false → sends c = [])
    {n : Nat} {m' : Manager} :
    Drains p sends m l n m' ↔ n = l.length ∧ m' = m.handleAll p l := by
  have hnothing : ∀ (m : Manager) e,
      (callsSince m.history (m.handle p e).history).flatMap sends = [] := by
    intro m e
    obtain ⟨calls, hcalls, hfetch⟩ := m.handle_asks_nothing p e
    rw [hcalls, callsSince_append, List.flatMap_eq_nil_iff]
    exact fun c hc => hsends c (hfetch c (List.mem_reverse.1 hc))
  constructor
  · intro h
    induction h with
    | empty m => exact ⟨rfl, rfl⟩
    | next _ ih =>
      rw [hnothing, List.append_nil] at ih
      exact ⟨congrArg (· + 1) ih.1, ih.2⟩
  · rintro ⟨rfl, rfl⟩
    induction l generalizing m with
    | nil => exact .empty m
    | cons e rest ih =>
      refine .next ?_
      rw [hnothing, List.append_nil]
      exact ih

theorem handleAll_asks_nothing (m : Manager) (p : Platform) (l : List Event) :
    ∃ calls, (m.handleAll p l).history = calls ++ m.history ∧ ∀ c ∈ calls, c.isFetch = false := by
  refine List.foldlRecOn (motive := fun (m' : Manager) => ∃ calls,
    m'.history = calls ++ m.history ∧ ∀ c ∈ calls, c.isFetch = false) l _ ⟨[], rfl, fun _ h => nomatch h⟩ ?_
  rintro m₁ ⟨calls, hcalls, hfetch⟩ e _
  obtain ⟨calls', hcalls', hfetch'⟩ := m₁.handle_asks_nothing p e
  refine ⟨calls' ++ calls, by rw [hcalls', hcalls, List.append_assoc], fun c hc => ?_⟩
  rcases List.mem_append.1 hc with hc | hc
  · exact hfetch' c hc
  · exact hfetch c hc

/-- **The order of reports does not matter.**  A queue that is drained in any state has just the
    reports in it handled, and no access point is asked for anything; this is so even if the
    platform sends reports when it is asked for metadata.  When the queue is reordered, and the
    profiles' part of the platform cannot tell how many answers were dropped, as many reports are
    handled, and the registry, the watches, the requests with their hold-offs, the metadata and
    every counter come out the same. -/
theorem event_order_is_immaterial (m : Manager) (p : Platform) (q : EventQueue) :
    let m₁ := (m.drain p q).2.1
    (m.drain p q).1 = q.events.length ∧
    (∀ sends : Call → List Event, (∀ c, c.isFetch = false → sends c = []) → ∀ n m',
      Drains p sends m q.events n m' ↔ n = (m.drain p q).1 ∧ m' = m₁) ∧
    (∀ c ∈ callsSince m.history m₁.history, c.isFetch = false) ∧
    (p.IgnoresDrops → ∀ q' : EventQueue, m.Reordering q.events q'.events →
      let m₂ := (m.drain p q').2.1
      (m.drain p q').1 = (m.drain p q).1 ∧ m₂.registry = m₁.registry ∧ m₂.watches = m₁.watches ∧
        m₂.requests.pending = m₁.requests.pending ∧
        m₂.requests.holdOffs = m₁.requests.holdOffs ∧ m₂.cache = m₁.cache ∧
        ∀ c, (Telemetry.ofHistory m₂.history).count c =
          (Telemetry.ofHistory m₁.history).count c) := by
  intro m₁
  refine ⟨rfl, fun sends hsends n m' => drains_iff hsends, ?_, ?_⟩
  · obtain ⟨calls, hcalls, hfetch⟩ := m.handleAll_asks_nothing p q.events
    have hsince : callsSince m.history m₁.history = calls.reverse := by
      rw [show m₁.history = calls ++ m.history from hcalls, callsSince_append]
    rw [hsince]
    exact fun c hc => hfetch c (List.mem_reverse.1 hc)
  · intro hp q' h m₂
    have halike : m₂.Alike m₁ := alike_handleAll hp h.profiles
    refine ⟨h.perm.length_eq, halike.registry, halike.watches, ?_, ?_, ?_, h.count hp⟩
    · exact OrderedMap.ext_get? fun bssid => (request_handleAll (h.completions bssid)).1
    · exact OrderedMap.ext_get? fun bssid => (request_handleAll (h.completions bssid)).2
    · exact OrderedMap.ext_get? fun key => get?_cache_handleAll (h.keys key)

/-- A profile is installed, and three access points are asked, two of them of one extended service
    set.  Their reports cross with one about the profile. -/
def scannedAndInstalled : List Step :=
  let first := { AccessPoint.ofNames "net" "02:00:00:00:00:01" with hessid := 7 }
  let second := { AccessPoint.ofNames "net" "02:00:00:00:00:02" with hessid := 7 }
  let third := { AccessPoint.ofNames "net" "02:00:00:00:00:03" with hessid := 8 }
  [(.obliging, .add (some (.ofSim "a.example")) ⟨10, "shop"⟩ false),
    (.obliging, .matchAll [first, second, third])]

def reportsInOrder : List Event :=
  [.networkConnected "a.example", .fetchResult ⟨0x020000000001⟩ (.ofList [.domainName ["a"]]),
    .fetchResult ⟨0x020000000002⟩ (.ofList [.domainName ["b"]]), .fetchFailure ⟨0x020000000001⟩,
    .fetchResult ⟨0x020000000003⟩ (.ofList [.domainName ["c"]])]

def reportsCrossing : List Event :=
  [.fetchResult ⟨0x020000000003⟩ (.ofList [.domainName ["c"]]),
    .fetchResult ⟨0x020000000001⟩ (.ofList [.domainName ["a"]]), .fetchFailure ⟨0x020000000001⟩,
    .networkConnected "a.example", .fetchResult ⟨0x020000000002⟩ (.ofList [.domainName ["b"]])]

theorem event_order_is_immaterial_crossing :
    let m := (new .default .default).run scannedAndInstalled
    let m₁ := (m.drain .obliging ⟨some reportsInOrder⟩).2.1
    let m₂ := (m.drain .obliging ⟨some reportsCrossing⟩).2.1
    m.Reordering reportsInOrder reportsCrossing ∧ reportsInOrder ≠ reportsCrossing ∧
      m₂.registry = m₁.registry ∧ m₂.registry ≠ m.registry ∧ m₂.cache = m₁.cache ∧
      m₂.cache.size = 2 := by
  intro m m₁ m₂
  have hreordering : m.Reordering reportsInOrder reportsCrossing := by decide
  have hp : Platform.obliging.IgnoresDrops :=
    ⟨fun _ => rfl, fun _ => rfl, fun _ => rfl, fun _ => rfl⟩
  obtain ⟨-, -, -, hsame⟩ := event_order_is_immaterial m .obliging ⟨some reportsInOrder⟩
  obtain ⟨-, hregistry, -, -, -, hcache, -⟩ := hsame hp ⟨some reportsCrossing⟩ hreordering
  exact ⟨hreordering, by decide, hregistry, by decide, hcache, by decide⟩

end Manager

end Hotspot
