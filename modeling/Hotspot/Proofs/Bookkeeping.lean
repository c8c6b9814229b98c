/-
  Hotspot/Proofs/Bookkeeping.lean
  ===============================
  **The counters tell what became of the profiles.**

  Whoever installs, imports or removes a profile is counted when the attempt is made and again
  when it succeeded.  A revocation is not asked for profile by profile, but counts both for each
  profile that it removes; a profile that another one takes the place of is counted by nobody.

  So the counters alone do not tell how many profiles there are.  They do together with what was
  replied: the errors make up for the attempts, the replacements for the profiles (`Balanced`).
  Each step that an operation is built of leaves the counters alone or moves one of them by one
  (`counted_*`), and from that every operation but restoring keeps the balance.
-/
import Hotspot.Proofs.Counting
import Hotspot.Proofs.Exchanges
import Hotspot.Proofs.Freshness

namespace Hotspot

/-! ### How many profiles there are -/

namespace Registry

def domains (r : Registry) : Set String := {domain | ∃ q, r.get? domain = some q}

/-- The home domains of the profiles whose network was ever connected. -/
def connectedDomains (r : Registry) : Set String :=
  {domain | ∃ q, r.get? domain = some q ∧ q.hasEverConnected = true}

theorem size_profiles (r : Registry) : r.profiles.size = r.domains.ncard := by
  rw [OrderedMap.size_eq_ncard]
  congr 1
  ext domain
  exact OrderedMap.contains_eq_true_iff

theorem Stays.domains_eq {r r' : Registry} (h : r.Stays r') : r'.domains = r.domains := by
  ext domain
  constructor
  · rintro ⟨q', hq'⟩
    obtain ⟨q, hq, -⟩ := h.origin domain q' hq'
    exact ⟨q, hq⟩
  · rintro ⟨q, hq⟩
    obtain ⟨q', hq', -⟩ := h.kept domain q hq
    exact ⟨q', hq'⟩

theorem Stays.size_eq {r r' : Registry} (h : r.Stays r') : r'.profiles.size = r.profiles.size := by
  rw [size_profiles, size_profiles, h.domains_eq]

/-- A profile that is entered is one more, unless it takes the place of another one. -/
theorem size_insert_add (r : Registry) (q : Profile) :
    (r.insert q).profiles.size + (r.get? q.fqdn).isSome.toNat = r.profiles.size + 1 :=
  OrderedMap.size_insert_add ..

theorem size_eraseSavedBy_add (r : Registry) (package : String) :
    (r.eraseSavedBy package).profiles.size + (r.savedBy package).length = r.profiles.size :=
  OrderedMap.size_filter_add ..

/-! ### The picture of a registry -/

theorem metrics_installed (r : Registry) : r.metrics.installed = r.domains.ncard := by
  rw [← size_profiles]
  exact List.length_map ..

theorem metrics_connected (r : Registry) : r.metrics.connected = r.connectedDomains.ncard := by
  have hcount : r.metrics.connected = r.profiles.values.countP (·.hasEverConnected) := by
    unfold metrics
    dsimp only
    rw [OrderedMap.values_mapValues, List.countP_map]
    rfl
  have hkept : r.connectedDomains =
      {domain | (r.profiles.filter fun _ q => q.hasEverConnected).contains domain = true} := by
    ext domain
    simp only [connectedDomains, Set.mem_ofPred_eq, OrderedMap.contains_eq_true_iff,
      OrderedMap.get?_filter, Option.filter_eq_some_iff]
    rfl
  rw [hcount, List.countP_eq_length_filter, ← OrderedMap.values_filter,
    OrderedMap.length_values, OrderedMap.size_eq_ncard, hkept]

theorem metrics_connected_le (r : Registry) : r.metrics.connected ≤ r.metrics.installed := by
  unfold metrics
  exact List.countP_le_length.trans_eq (OrderedMap.length_values _)

end Registry

/-! ### Tallies of a run -/

def Operation.isEntry : Operation → Bool
  | .add .. => true
  | .importLegacy _ => true
  | _ => false

def Operation.isRemoval : Operation → Bool
  | .remove .. => true
  | _ => false

def Operation.domain? : Operation → Option String
  | .add config? _ _ => config?.map (·.fqdn)
  | .importLegacy entry => some entry.fqdn
  | _ => none

def Reply.isError : Reply → Bool
  | .failed _ => true
  | _ => false

namespace Manager

def failsEntry (m : Manager) (s : Step) : Bool :=
  s.2.isEntry && (m.perform s.1 s.2).1.isError

def failsRemoval (m : Manager) (s : Step) : Bool :=
  s.2.isRemoval && (m.perform s.1 s.2).1.isError

/-- An installation or an import is accepted for a domain that has a profile already. -/
def replaces (m : Manager) (s : Step) : Bool :=
  s.2.isEntry && (m.perform s.1 s.2).1 = .done &&
    s.2.domain?.any fun domain => (m.registry.get? domain).isSome

/-- How many steps of a run satisfy a condition, which may look at the state they are taken in. -/
def tally (counts : Manager → Step → Bool) : Manager → List Step → Nat
  | _, [] => 0
  | m, s :: rest => (counts m s).toNat + tally counts (m.perform s.1 s.2).2 rest

/-! ### What the steps count -/

def counted (m : Manager) (c : Counter) : Nat := m.history.count (.increment c)

section Steps

variable (m : Manager) (p : Platform) (c : Counter)

@[simp] theorem counted_record (call : Call) :
    (m.record call).counted c = m.counted c + if call = .increment c then 1 else 0 := by
  simp [counted, List.count_cons]

@[simp] theorem counted_increment (c' : Counter) :
    (m.increment c').counted c = m.counted c + if c' = c then 1 else 0 := by
  simp [increment]

@[simp] theorem counted_setRegistry (r : Registry) :
    ({ m with registry := r } : Manager).counted c = m.counted c := rfl

@[simp] theorem counted_persist : (m.persist p).counted c = m.counted c := by
  simp [persist]

@[simp] theorem counted_retire (q : Profile) : (m.retire p q).counted c = m.counted c := by
  simp [retire, uninstall]

@[simp] theorem counted_retireReplaced (q : Profile) (old : Option Profile) :
    (m.retireReplaced p q old).counted c = m.counted c := by
  unfold retireReplaced
  split
  · rfl
  · split <;> simp [uninstall]

@[simp] theorem counted_startWatching (app : AppIdentity) :
    (m.startWatching app).counted c = m.counted c := by
  unfold startWatching
  split
  · rfl
  · exact (counted_record _ c _).trans (by simp [counted])

@[simp] theorem counted_stopWatching (package : String) :
    (m.stopWatching package).counted c = m.counted c := by
  unfold stopWatching
  split
  · rfl
  · exact (counted_record _ c _).trans (by simp [counted])

@[simp] theorem counted_releaseOwner (gone : Profile) :
    (m.releaseOwner gone).counted c = m.counted c := by
  unfold releaseOwner
  split
  · exact counted_stopWatching ..
  · rfl

@[simp] theorem counted_releaseReplaced (old : Option Profile) :
    (m.releaseReplaced old).counted c = m.counted c := by
  cases old with
  | none => rfl
  | some old => exact counted_releaseOwner ..

@[simp] theorem counted_disconnectFrom (domain : Option String) (removed : List Profile) :
    (m.disconnectFrom domain removed).counted c = m.counted c := by
  unfold disconnectFrom
  split
  · rfl
  · split
    · simp
    · rfl

@[simp] theorem counted_refreshCarrier (fqdn : String) :
    (m.refreshCarrier p fqdn).counted c = m.counted c := by
  rcases m.refreshCarrier_cases p fqdn with h | ⟨imsi, answer, h⟩ | ⟨imsi, carrierId, h⟩ <;>
    rw [h]
  · simp
  · rw [counted_persist]
    exact (counted_record _ c _).trans (by simp)

/-- A profile that is entered is counted once. -/
@[simp] theorem counted_enter (q : Profile) (watch : Bool) :
    (m.enter p q watch).counted c = m.counted c + if .installSucceeded = c then 1 else 0 := by
  unfold enter
  rw [counted_increment]
  cases watch <;> simp [commit]

theorem counted_retireAll (removed : List Profile) :
    (removed.foldl (fun m q => m.retireCounted p q) m).counted c = m.counted c +
      if c = .uninstallAttempted ∨ c = .uninstallSucceeded then removed.length else 0 := by
  induction removed generalizing m with
  | nil => simp
  | cons q rest ih =>
    have hone : (m.retireCounted p q).counted c = m.counted c +
        if c = .uninstallAttempted ∨ c = .uninstallSucceeded then 1 else 0 := by
      cases c <;> simp [retireCounted]
    rw [List.foldl_cons, ih, hone, List.length_cons]
    split <;> omega

/-- Profiles that are removed together count an attempt and a success each. -/
theorem counted_removeSavedBy (package : String) :
    (m.removeSavedBy p package).2.counted c = m.counted c +
      if c = .uninstallAttempted ∨ c = .uninstallSucceeded then
        (m.registry.savedBy package).length
      else 0 := by
  unfold removeSavedBy
  dsimp only
  split
  · rw [counted_retireAll, counted_setRegistry]
  · rw [counted_persist, counted_retireAll, counted_setRegistry]

theorem counted_revoke (uid : UInt32) (package : String) :
    (m.revoke p uid package).counted c = m.counted c +
      if c = .uninstallAttempted ∨ c = .uninstallSucceeded then
        (m.registry.savedBy package).length
      else 0 := by
  unfold revoke
  dsimp only
  rw [counted_disconnectFrom, counted_stopWatching, counted_removeSavedBy]
  simp

variable {c} in
/-- Quiet steps count the traffic with access points at most. -/
theorem Quiet.counted {m m' : Manager} (h : Quiet m m') (hc : c.isOfRadio = false) :
    m'.counted c = m.counted c := by
  obtain ⟨calls, hcalls, hquiet⟩ := h.history
  have hnone : Call.increment c ∉ calls := by
    intro hmem
    have hq := hquiet _ hmem
    cases c with
    | requestIssued => cases hc
    | responseDropped => cases hc
    | _ => cases hq
  rw [Manager.counted, hcalls, List.count_append, List.count_eq_zero.2 hnone, Nat.zero_add]
  rfl

/-- A request that comes to a gate has counted its attempt. -/
theorem counted_refused (r : InstallRequest) (g : Gate) :
    (r.refused m p g).counted c = m.counted c + if .installAttempted = c then 1 else 0 := by
  have hnone : Call.increment c ∉ (g.before ++ [g]).flatMap (r.calls m p) := by
    intro hmem
    obtain ⟨g', -, hcall⟩ := List.mem_flatMap.1 hmem
    rcases r.mem_calls hcall with ⟨ca, failure, h⟩ | ⟨q, failure, h⟩ <;> cases h
  have hcalls : (r.callsThrough m p g).count (.increment c) =
      if .installAttempted = c then 1 else 0 := by
    rw [InstallRequest.callsThrough, List.count_cons, List.count_eq_zero.2 hnone]
    simp
  rw [counted, InstallRequest.refused, List.count_append, List.count_reverse, hcalls, Nat.add_comm]
  rfl

end Steps

/-! ### Entries and removals -/

/-- `m'` is `m` once an attempt was counted, with the same profiles. -/
structure Attempted (c : Counter) (m m' : Manager) : Prop where
  counted : ∀ c', m'.counted c' = m.counted c' + if c = c' then 1 else 0
  profiles : m'.registry.profiles = m.registry.profiles

section Attempts

variable (m : Manager) (p : Platform)

theorem attempted_increment (c : Counter) : Attempted c m (m.increment c) :=
  ⟨fun c' => counted_increment m c' c, rfl⟩

theorem attempted_refused (r : InstallRequest) (g : Gate) :
    Attempted .installAttempted m (r.refused m p g) := by
  refine ⟨fun c' => counted_refused m p c' r g, ?_⟩
  unfold InstallRequest.refused
  split <;> rfl

/-- **An installation or an import counts the attempt**, and then returns an error or enters a
    profile for its domain. -/
theorem entry_cases {op : Operation} (hop : op.isEntry = true) :
    (∃ e, (m.perform p op).1 = .failed e ∧ Attempted .installAttempted m (m.perform p op).2) ∨
    ∃ m₁ q watch, Attempted .installAttempted m m₁ ∧ op.domain? = some q.fqdn ∧
      m.perform p op = (.done, m₁.enter p q watch) := by
  cases op with
  | add config? caller isSuggestion =>
    let r : InstallRequest := { config?, caller, isSuggestion }
    have hperform : m.perform p (.add config? caller isSuggestion) =
        (m.add p r.config? r.caller r.isSuggestion).map .ofResult id := rfl
    rcases r.first_failure m p with ⟨g, e, hbefore, hfailure⟩ | hnone
    · rw [hperform, add_of_refused m p r g hbefore hfailure]
      exact Or.inl ⟨e, rfl, attempted_refused m p r g⟩
    · obtain ⟨q, hq, hadd⟩ := add_of_accepted m p r hnone
      have hdomain : (Operation.add config? caller isSuggestion).domain? = some q.fqdn :=
        congrArg (Option.map ProfileConfig.fqdn) (InstallRequest.of_profile? hq).1
      rw [hperform, hadd]
      exact Or.inr ⟨r.accepted m p, q, _, attempted_refused m p r .install, hdomain, rfl⟩
  | importLegacy entry =>
    have hperform : m.perform p (.importLegacy entry) =
        (m.importLegacy p entry).map .ofResult id := rfl
    have hattempted := attempted_increment m .installAttempted
    rw [hperform, importLegacy_eq]
    cases hentry : entry.toProfileConfig with
    | error reason => exact Or.inl ⟨_, rfl, hattempted⟩
    | ok converted =>
      obtain ⟨config, type⟩ := converted
      let q := Profile.new config m.registry.nextIndex entry.creator .saved type
      let m₁ := { m.increment .installAttempted with registry := m.registry.takeIndex }
      have htaken : Attempted .installAttempted m m₁ := ⟨hattempted.counted, rfl⟩
      have hdomain : (Operation.importLegacy entry).domain? = some q.fqdn :=
        congrArg some (Legacy.Entry.fqdn_of_toProfileConfig hentry).symm
      exact Or.inr ⟨m₁, q, _, htaken, hdomain, rfl⟩
  | _ => cases hop

end Attempts

/-! ### The balance -/

/-- The counters agree with the profiles, when so many entries and removals failed and so many
    profiles were replaced. -/
structure Balanced (failedEntries failedRemovals replaced : Nat) (m : Manager) : Prop where
  entries : m.counted .installAttempted = m.counted .installSucceeded + failedEntries
  removals : m.counted .uninstallAttempted = m.counted .uninstallSucceeded + failedRemovals
  profiles : m.counted .installSucceeded =
    m.registry.profiles.size + replaced + m.counted .uninstallSucceeded

theorem balanced_new (settings : Settings) (matchers : Matchers) :
    Balanced 0 0 0 (new settings matchers) := ⟨rfl, rfl, rfl⟩

namespace Balanced

variable {failedEntries failedRemovals replaced : Nat} {m m₁ : Manager} {p : Platform}
  {op : Operation} (h : Balanced failedEntries failedRemovals replaced m)
include h

/-- Only the counters of profiles and the number of profiles matter: what is added to the
    counters, to the errors and to the replacements has to agree with how many profiles there
    are then. -/
theorem moved (added : Counter → Nat) {failedEntries' failedRemovals' replaced' : Nat}
    (hcounted : ∀ c, c.isOfRadio = false → m₁.counted c = m.counted c + added c)
    (hentries : failedEntries + added .installAttempted =
      failedEntries' + added .installSucceeded)
    (hremovals : failedRemovals + added .uninstallAttempted =
      failedRemovals' + added .uninstallSucceeded)
    (hprofiles : m.registry.profiles.size + replaced + added .installSucceeded =
      m₁.registry.profiles.size + replaced' + added .uninstallSucceeded) :
    Balanced failedEntries' failedRemovals' replaced' m₁ := by
  have hinstalled := hcounted .installSucceeded rfl
  have hgone := hcounted .uninstallSucceeded rfl
  constructor
  case entries =>
    have htried := hcounted .installAttempted rfl
    have hbefore := h.entries
    omega
  case removals =>
    have htried := hcounted .uninstallAttempted rfl
    have hbefore := h.removals
    omega
  case profiles =>
    have hbefore := h.profiles
    omega

theorem congr (hcounted : ∀ c, c.isOfRadio = false → m₁.counted c = m.counted c)
    (hsize : m₁.registry.profiles.size = m.registry.profiles.size) :
    Balanced failedEntries failedRemovals replaced m₁ :=
  h.moved (fun _ => 0) hcounted rfl rfl (by rw [hsize])

theorem quiet (hq : Quiet m m₁) : Balanced failedEntries failedRemovals replaced m₁ :=
  h.congr (fun _ hc => hq.counted hc) (by rw [hq.registry])

/-- A profile that changes in its life counts for nothing. -/
theorem change (fqdn : String) {f : Profile → Profile}
    (hf : ∀ q : Profile, q.SameInstallation (f q)) :
    Balanced failedEntries failedRemovals replaced
      ({ m with registry := m.registry.modify fqdn f }.persist p) :=
  h.congr (fun c _ => (counted_persist _ p c).trans (counted_setRegistry m c _))
    (Registry.Stays.modify m.registry fqdn hf).size_eq

theorem failedEntry (ha : Attempted .installAttempted m m₁) :
    Balanced (failedEntries + 1) failedRemovals replaced m₁ :=
  h.moved _ (fun c _ => ha.counted c) rfl rfl (by rw [ha.profiles]; rfl)

theorem failedRemoval (ha : Attempted .uninstallAttempted m m₁) :
    Balanced failedEntries (failedRemovals + 1) replaced m₁ :=
  h.moved _ (fun c _ => ha.counted c) rfl rfl (by rw [ha.profiles]; rfl)

/-- A profile that is entered counts an attempt and a success. -/
theorem entered (ha : Attempted .installAttempted m m₁) (q : Profile) (watch : Bool) :
    Balanced failedEntries failedRemovals
      (replaced + (m.registry.get? q.fqdn).isSome.toNat) (m₁.enter p q watch) := by
  have hcounted : ∀ c, (m₁.enter p q watch).counted c = m.counted c +
      if c = .installAttempted ∨ c = .installSucceeded then 1 else 0 := by
    intro c
    rw [counted_enter, ha.counted]
    cases c <;> rfl
  have hsize : (m₁.enter p q watch).registry.profiles.size +
      (m.registry.get? q.fqdn).isSome.toNat = m.registry.profiles.size + 1 := by
    have hinserted := m₁.registry.size_insert_add q
    rw [Registry.get?, ha.profiles, ← Registry.get?] at hinserted
    rw [(stays_enter m₁ p q watch).size_eq, hinserted]
  refine h.moved _ (fun c _ => hcounted c) rfl rfl ?_
  rw [if_pos (Or.inr rfl), if_neg (by decide)]
  omega

/-- Profiles that are removed count an attempt and a success each. -/
theorem gone {n : Nat} (hcounted : ∀ c, m₁.counted c = m.counted c +
      if c = .uninstallAttempted ∨ c = .uninstallSucceeded then n else 0)
    (hsize : m₁.registry.profiles.size + n = m.registry.profiles.size) :
    Balanced failedEntries failedRemovals replaced m₁ := by
  refine h.moved _ (fun c _ => hcounted c) rfl rfl ?_
  rw [if_neg (by decide), if_pos (Or.inr rfl)]
  omega

/-! #### Operations -/

theorem entry (hop : op.isEntry = true) :
    Balanced (failedEntries + (m.failsEntry (p, op)).toNat) failedRemovals
      (replaced + (m.replaces (p, op)).toNat) (m.perform p op).2 := by
  rcases m.entry_cases p hop with ⟨e, hreply, hattempted⟩ |
    ⟨m₁, q, watch, hattempted, hdomain, hperform⟩
  · have hfails : m.failsEntry (p, op) = true := by simp [failsEntry, hop, hreply, Reply.isError]
    have hreplaces : m.replaces (p, op) = false := by simp [replaces, hreply]
    rw [hfails, hreplaces]
    exact h.failedEntry hattempted
  · have hfails : m.failsEntry (p, op) = false := by simp [failsEntry, hperform, Reply.isError]
    have hreplaces : m.replaces (p, op) = (m.registry.get? q.fqdn).isSome := by
      simp [replaces, hop, hperform, hdomain]
    rw [hfails, hreplaces, hperform]
    exact h.entered hattempted q watch

theorem remove (uid : UInt32) (privileged : Bool) (fqdn : String) :
    Balanced failedEntries
      (failedRemovals + (m.failsRemoval (p, .remove uid privileged fqdn)).toNat) replaced
      (m.perform p (.remove uid privileged fqdn)).2 := by
  have hperform : m.perform p (.remove uid privileged fqdn) =
      (m.remove p uid privileged fqdn).map .ofResult id := rfl
  have hfails : m.failsRemoval (p, .remove uid privileged fqdn) =
      (m.perform p (.remove uid privileged fqdn)).1.isError := rfl
  rw [hfails, hperform]
  rcases m.remove_cases p uid privileged fqdn with ⟨e, he⟩ | ⟨q, hget, -, he⟩ <;> rw [he]
  · exact h.failedRemoval (attempted_increment m .uninstallAttempted)
  · refine h.gone (n := 1) (fun c => ?_) ?_
    · cases c <;> simp
    · simp only [Prod.map_snd, id_eq, increment_registry, releaseOwner_registry, persist_registry,
        retire_registry]
      exact OrderedMap.size_erase hget

theorem authorizationChanged (package : String) :
    Balanced failedEntries failedRemovals replaced (m.authorizationChanged p package).2 := by
  rcases m.authorizationChanged_cases p package with ⟨-, he⟩ | ⟨uid, -, ⟨-, he⟩ | ⟨-, he⟩⟩ <;>
    rw [he]
  · exact h
  · exact h.congr (fun c _ => by simp) rfl
  · refine h.gone (fun c => counted_revoke m p c uid package) ?_
    rw [revoke_registry]
    exact m.registry.size_eraseSavedBy_add package

/-- **Every operation but restoring keeps the balance**, with what it adds to the errors and to
    the replacements. -/
theorem perform (hop : ∀ s, op ≠ .restore s) :
    Balanced (failedEntries + (m.failsEntry (p, op)).toNat)
      (failedRemovals + (m.failsRemoval (p, op)).toNat)
      (replaced + (m.replaces (p, op)).toNat) (m.perform p op).2 := by
  cases hentry : op.isEntry with
  | true =>
    have hremoval : m.failsRemoval (p, op) = false := by
      cases op <;> first | rfl | cases hentry
    rw [hremoval]
    exact h.entry hentry
  | false =>
    have hfails : m.failsEntry (p, op) = false := by simp [failsEntry, hentry]
    have hreplaces : m.replaces (p, op) = false := by simp [replaces, hentry]
    rw [hfails, hreplaces]
    cases hremoval : op.isRemoval with
    | true =>
      cases op with
      | remove uid privileged fqdn => exact h.remove uid privileged fqdn
      | _ => cases hremoval
    | false =>
      have hkept : m.failsRemoval (p, op) = false := by simp [failsRemoval, hremoval]
      rw [hkept]
      -- What is left replies with no error that counts, so that the balance itself is what each
      -- step has to keep.
      apply operation_induction (I := Balanced failedEntries failedRemovals replaced)
      · exact fun m₁ m₂ hq h₁ => h₁.quiet hq
      · exact fun m₁ fqdn f hf h₁ => h₁.change fqdn fun q => (hf q).toSameInstallation
      · rintro config? caller isSuggestion rfl
        cases hentry
      · rintro entry rfl
        cases hentry
      · rintro uid privileged fqdn rfl
        cases hremoval
      · exact fun package _ => h.authorizationChanged package
      · exact fun s hs => absurd hs (hop s)
      · exact h

end Balanced

theorem Balanced.run {failedEntries failedRemovals replaced : Nat} {m : Manager}
    {steps : List Step} (h : Balanced failedEntries failedRemovals replaced m)
    (hsteps : ∀ p s, (p, Operation.restore s) ∉ steps) :
    Balanced (failedEntries + m.tally failsEntry steps)
      (failedRemovals + m.tally failsRemoval steps) (replaced + m.tally replaces steps)
      (m.run steps) := by
  -- The numbers so far go on with the state: what the first step adds is there before the rest.
  induction steps generalizing m failedEntries failedRemovals replaced with
  | nil => exact h
  | cons s rest ih =>
    obtain ⟨p, op⟩ := s
    have hop : ∀ s, op ≠ .restore s := by
      rintro s rfl
      exact hsteps p s List.mem_cons_self
    have hrest := ih (h.perform (p := p) hop) fun p' s hmem =>
      hsteps p' s (List.mem_cons_of_mem _ hmem)
    simp only [Nat.add_assoc] at hrest
    exact hrest

/-! ### What is told -/

/-- Counters that started over differ by what was counted, all the same. -/
theorem count_sub {m : Manager} {c c' : Counter} {n : Nat}
    (h : m.counted c = n + m.counted c') :
    (Telemetry.ofHistory m.history).count c - (Telemetry.ofHistory m.history).count c' =
      UInt64.ofNat n := by
  have hcounted : m.history.count (.increment c) = n + m.history.count (.increment c') := h
  rw [Telemetry.count_ofHistory, Telemetry.count_ofHistory, hcounted, UInt64.ofNat_add,
    UInt64.add_sub_cancel]

/-- **The counters balance.**  In every run without restoring

    * as many installations and imports were attempted as succeeded and returned an error;
    * as many removals, those of revocations among them, were attempted as succeeded and
      returned an error;
    * as many installations and imports succeeded as there are profiles, were replacements, and
      were undone by a removal that succeeded.

    The telemetry has these numbers, each up to 2^64.  The picture of the profiles has the number
    of those that are installed and of those that were ever connected, which are no more, and
    publishing it sets the gauges to them. -/
theorem counters_balance (settings : Settings) (matchers : Matchers) {steps : List Step}
    (hsteps : ∀ p s, (p, Operation.restore s) ∉ steps) :
    let m₀ := new settings matchers
    let m := m₀.run steps
    let told := Telemetry.ofHistory m.history
    let failedEntries := m₀.tally failsEntry steps
    let failedRemovals := m₀.tally failsRemoval steps
    let replaced := m₀.tally replaces steps
    let installed := m.registry.domains.ncard
    let connected := m.registry.connectedDomains.ncard
    m.counted .installAttempted = m.counted .installSucceeded + failedEntries ∧
    m.counted .uninstallAttempted = m.counted .uninstallSucceeded + failedRemovals ∧
    m.counted .installSucceeded = installed + replaced + m.counted .uninstallSucceeded ∧
    (∀ c, told.count c = .ofNat (m.counted c)) ∧
    told.count .installAttempted - told.count .installSucceeded = .ofNat failedEntries ∧
    told.count .uninstallAttempted - told.count .uninstallSucceeded = .ofNat failedRemovals ∧
    told.count .installSucceeded - told.count .uninstallSucceeded - .ofNat replaced =
      .ofNat installed ∧
    m.registry.metrics.installed = installed ∧ m.registry.metrics.connected = connected ∧
    connected ≤ installed ∧
    ∀ p, (m.perform p .metrics).1 = .metrics m.registry.metrics ∧
      (m.perform p .publishMetrics).1 = .metrics m.registry.metrics ∧
      Telemetry.ofHistory (m.perform p .publishMetrics).2.history =
        told.setGauges (.ofNat installed) (.ofNat connected) := by
  intro m₀ m told failedEntries failedRemovals replaced installed connected
  obtain ⟨hentries, hremovals, hprofiles⟩ : Balanced failedEntries failedRemovals replaced m := by
    have hrun := (balanced_new settings matchers).run hsteps
    simp only [Nat.zero_add] at hrun
    exact hrun
  rw [Registry.size_profiles] at hprofiles
  have hinstalled := m.registry.metrics_installed
  have hconnected := m.registry.metrics_connected
  refine ⟨hentries, hremovals, hprofiles, fun c => Telemetry.count_ofHistory _ c, ?_, ?_, ?_,
    hinstalled, hconnected, ?_, fun p => ⟨rfl, rfl, ?_⟩⟩
  · exact count_sub (hentries.trans (Nat.add_comm _ _))
  · exact count_sub (hremovals.trans (Nat.add_comm _ _))
  · rw [count_sub hprofiles, UInt64.ofNat_add, UInt64.add_sub_cancel]
  · calc
      connected = m.registry.metrics.connected := hconnected.symm
      _ ≤ m.registry.metrics.installed := m.registry.metrics_connected_le
      _ = installed := hinstalled
  · have hpublished : Telemetry.ofHistory (m.perform p .publishMetrics).2.history =
        told.setGauges (.ofNat m.registry.metrics.installed)
          (.ofNat m.registry.metrics.connected) := rfl
    rw [hpublished, hinstalled, hconnected]

/-- A profile is installed and one refused, an import takes the place of the first, a suggestion
    is connected.  One application may not remove the other's profile; then the other loses its
    right. -/
def soldAndRevoked : List Step :=
  [(.obliging, .add (some (.ofSim "a.example")) ⟨10, "shop"⟩ false),
    (.locked, .add (some (.ofSim "b.example")) ⟨10, "shop"⟩ false),
    (.obliging, .importLegacy (.ofSim "a.example")),
    (.obliging, .add (some (.ofSim "c.example")) ⟨10, "shop"⟩ true),
    (.obliging, .networkConnected "c.example"),
    (.obliging, .remove 10 false "a.example"),
    (.failing none, .handle (.authorizationChanged "settings"))]

theorem counters_balance_revoked :
    let m₀ := new .default .default
    let m := m₀.run soldAndRevoked
    m₀.tally failsEntry soldAndRevoked = 1 ∧ m₀.tally failsRemoval soldAndRevoked = 1 ∧
      m₀.tally replaces soldAndRevoked = 1 ∧
      m.counted .installAttempted = m.counted .installSucceeded + 1 ∧
      m.counted .uninstallAttempted = m.counted .uninstallSucceeded + 1 ∧
      m.counted .installSucceeded = 1 + 1 + m.counted .uninstallSucceeded ∧
      m.counted .uninstallSucceeded = 1 ∧
      m.registry.domains.ncard = 1 ∧ m.registry.connectedDomains.ncard = 1 := by
  intro m₀ m
  have hsteps : ∀ p s, (p, Operation.restore s) ∉ soldAndRevoked := by
    intro p s hmem
    simp [soldAndRevoked] at hmem
  have hfailed : m₀.tally failsEntry soldAndRevoked = 1 := by decide
  have hrefused : m₀.tally failsRemoval soldAndRevoked = 1 := by decide
  have hreplaced : m₀.tally replaces soldAndRevoked = 1 := by decide
  have hmetrics : m.registry.metrics.installed = 1 ∧ m.registry.metrics.connected = 1 := by decide
  obtain ⟨hentries, hremovals, hprofiles, -, -, -, -, hinstalled, hconnected, -⟩ :=
    counters_balance .default .default hsteps
  rw [hmetrics.1] at hinstalled
  rw [hfailed] at hentries
  rw [hrefused] at hremovals
  rw [hreplaced, ← hinstalled] at hprofiles
  exact ⟨hfailed, hrefused, hreplaced, hentries, hremovals, hprofiles, by decide,
    hinstalled.symm, hconnected.symm.trans hmetrics.2⟩

end Manager

end Hotspot
