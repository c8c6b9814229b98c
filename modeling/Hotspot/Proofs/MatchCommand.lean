/-
  Hotspot/Proofs/MatchCommand.lean
  ================================
  **The match command prints what matching each record directly gives.**

  The command goes over the scan twice.  The first time nothing is remembered yet, so every
  record whose key can be derived is asked once, each under an address of its own, and nothing
  else happens (`Asked`).  The reports that wait then find each request open, and what was
  answered is remembered under the key of its record, which no other record has
  (`remembered_handleAll`).  The second time a record is matched with the metadata that was
  answered for its own address, so the groups are those of the rule of precedence, record by
  record (`Contributes`).

  What is printed has no trace of how the groups were built.  It is an object with the domains that
  have a group, in their order, and each group is there under its class with a label for each of
  its records (`Prints`); nothing else could be printed for these groups.

  Records must not share an address or a key: an address that is asked already is not asked again
  for a second key, and of two answers for one key the later one is remembered.
-/
import Hotspot.Command.Session
import Hotspot.Proofs.Completions
import Hotspot.Proofs.Exchanges
import Hotspot.Proofs.JsonForms
import Hotspot.Proofs.Scans

namespace Hotspot

open Command

/-! ### Canned answers -/

theorem Anqp.Elements.get?_ofList (es : List Anqp.Element) (kind : Anqp.Kind) :
    (Anqp.Elements.ofList es).get? kind = (es.filter fun e => e.kind = kind).getLast? := by
  rw [ofList, OrderedMap.get?_ofList, List.filter_map, List.getLast?_map, Option.map_map]
  exact Option.map_id'

namespace Command.Circumstances

/-- An access point answers with the elements of its last canned answer. -/
theorem elements?_eq (c : Circumstances) (bssid : MacAddress) :
    c.elements? bssid = ((c.answers.filter fun a => a.bssid = bssid).getLast?).map fun a =>
      Anqp.Elements.ofList a.elements := by
  rw [elements?, OrderedMap.get?_ofList, List.filter_map, List.getLast?_map, Option.map_map]
  rfl

theorem completes_report (c : Circumstances) (bssid : MacAddress) :
    (c.report bssid).completes? = some bssid := by
  unfold report
  split <;> rfl

theorem answer_report (c : Circumstances) (bssid : MacAddress) :
    (c.report bssid).answer? = c.elements? bssid := by
  unfold report
  split
  · rename_i es hes
    exact hes.symm
  · rename_i hnone
    exact hnone.symm

/-- One report waits for each request that was taken. -/
theorem reports_eq (c : Circumstances) (calls : List Call) :
    c.reports calls = (calls.filterMap Call.accepted?).map c.report := by
  rw [reports, List.map_filterMap]
  congr 1
  funext call
  cases call with
  | issueFetch bssid first biased accepted => cases accepted <;> rfl
  | _ => rfl

end Command.Circumstances

namespace Manager

variable {m m₀ : Manager} {p : Platform} {ts : List QueryTarget}

/-! ### The first time -/

/-- From `m₀` to `m` the targets were asked, in this order, and nothing else happened. -/
structure Asked (m₀ m : Manager) (ts : List QueryTarget) : Prop where
  registry : m.registry = m₀.registry
  matchers : m.matchers = m₀.matchers
  cache : m.cache = m₀.cache
  opened : ∀ t ∈ ts, m.openKey? t.bssid = some t.key
  free : ∀ bssid, bssid ∉ ts.map (·.bssid) → m.requests.pending.get? bssid = none ∧
    m.requests.holdOffs.get? bssid = none
  calls : ∃ calls, m.history = calls ++ m₀.history ∧
    calls.reverse.filterMap Call.accepted? = ts.map (·.bssid)

/-- An access point is asked when nothing is remembered for it and nothing speaks against it. -/
theorem matchOne_of_free {ap : AccessPoint} {target : QueryTarget}
    (htarget : ap.queryTarget? = some target) (hcache : m.cache.get? target.key = none)
    (hpending : m.requests.pending.get? target.bssid = none)
    (hheld : m.requests.holdOffs.get? target.bssid = none)
    (haccepts : ∀ h bssid first biased, p.acceptsFetch h bssid first biased = true) :
    ∃ first biased, m.matchOne p ap = ([], m.requested p target first biased) := by
  refine ⟨m.requests.isFirstAttempt target.bssid, target.release.any (·.hasHomeRealmQuery), ?_⟩
  have hmay : m.requests.mayRequest p.now target.bssid = true := by
    simp [RequestTracker.mayRequest, RequestTracker.isHeldOff, OrderedMap.contains, hpending, hheld]
  unfold matchOne requestFetch
  simp only [htarget, hcache, hmay, haccepts, if_true]
  rfl

theorem Asked.next (h : m₀.Asked m ts) {target : QueryTarget} (first biased : Bool)
    (hnew : target.bssid ∉ ts.map (·.bssid)) :
    m₀.Asked (m.requested p target first biased) (ts ++ [target]) := by
  have hpending : ∀ bssid, (m.requested p target first biased).requests.pending.get? bssid =
      if bssid = target.bssid then some { key := target.key, issuedAt := p.now }
      else m.requests.pending.get? bssid := fun bssid => OrderedMap.get?_insert ..
  refine ⟨h.registry, h.matchers, h.cache, fun t ht => ?_, fun bssid hbssid => ?_, ?_⟩
  · unfold openKey?
    rw [hpending]
    rcases List.mem_append.1 ht with ht | ht
    · have hne : t.bssid ≠ target.bssid := by
        intro hb
        exact hnew (hb ▸ List.mem_map_of_mem ht)
      rw [if_neg hne]
      exact h.opened t ht
    · rw [List.mem_singleton.1 ht, if_pos rfl]
      rfl
  · rw [List.map_append, List.mem_append, not_or] at hbssid
    have hne : bssid ≠ target.bssid := by
      rintro rfl
      exact hbssid.2 List.mem_cons_self
    have hheld : (m.requested p target first biased).requests.holdOffs.get? bssid =
        m.requests.holdOffs.get? bssid := OrderedMap.get?_insert_of_ne _ _ hne
    rw [hpending, if_neg hne, hheld]
    exact h.free bssid hbssid.1
  · obtain ⟨calls, hcalls, hasked⟩ := h.calls
    refine ⟨.increment .requestIssued :: .issueFetch target.bssid first biased true :: calls, ?_, ?_⟩
    · exact congrArg (fun earlier => _ :: _ :: earlier) hcalls
    · rw [List.reverse_cons, List.reverse_cons, List.append_assoc, List.filterMap_append, hasked,
        List.map_append]
      rfl

/-- The rest of a scan asks the rest of its records, when none of them has an address that was
    asked before. -/
theorem Asked.scan (hcache : m₀.cache = .empty)
    (haccepts : ∀ h bssid first biased, p.acceptsFetch h bssid first biased = true)
    {aps : List AccessPoint} {s : MatchGroups × Manager} (h : m₀.Asked s.2 ts)
    (hdistinct : (ts ++ aps.filterMap (·.queryTarget?)).Pairwise fun t t' => t.bssid ≠ t'.bssid) :
    m₀.Asked (aps.foldl (fun (s : MatchGroups × Manager) ap =>
      groupMatches p ap (s.2.matchOne p ap).1 (s.1, (s.2.matchOne p ap).2)) s).2
      (ts ++ aps.filterMap (·.queryTarget?)) := by
  induction aps generalizing ts s with
  | nil =>
    rw [List.filterMap_nil, List.append_nil]
    exact h
  | cons ap rest ih =>
    rw [List.foldl_cons]
    cases htarget : ap.queryTarget? with
    | none =>
      have hnothing : s.2.matchOne p ap = ([], s.2) := by simp only [matchOne, htarget]
      rw [List.filterMap_cons_none htarget] at hdistinct ⊢
      rw [hnothing]
      exact ih h hdistinct
    | some target =>
      rw [List.filterMap_cons_some htarget] at hdistinct ⊢
      have hnew : target.bssid ∉ ts.map (·.bssid) := by
        rw [List.mem_map]
        rintro ⟨t, ht, hb⟩
        exact (List.pairwise_append.1 hdistinct).2.2 t ht target List.mem_cons_self hb
      have hforgotten : s.2.cache.get? target.key = none := by
        rw [h.cache, hcache]
        rfl
      obtain ⟨hpending, hheld⟩ := h.free _ hnew
      obtain ⟨first, biased, hasked⟩ :=
        matchOne_of_free (p := p) htarget hforgotten hpending hheld haccepts
      rw [List.append_cons] at hdistinct ⊢
      rw [hasked]
      exact ih (h.next first biased hnew) hdistinct

/-- **The first time over a scan asks every record once**, when nothing is remembered and nothing
    was asked before. -/
theorem asked_matchAll (hcache : m₀.cache = .empty) (hrequests : m₀.requests = .empty)
    (haccepts : ∀ h bssid first biased, p.acceptsFetch h bssid first biased = true)
    {aps : List AccessPoint}
    (hdistinct : (aps.filterMap (·.queryTarget?)).Pairwise fun t t' => t.bssid ≠ t'.bssid) :
    m₀.Asked (m₀.matchAll p aps).2 (aps.filterMap (·.queryTarget?)) := by
  have hfree : ∀ bssid, m₀.requests.pending.get? bssid = none ∧
      m₀.requests.holdOffs.get? bssid = none := by
    intro bssid
    rw [hrequests]
    exact ⟨rfl, rfl⟩
  have hstart : m₀.Asked m₀ [] :=
    ⟨rfl, rfl, rfl, fun _ ht => absurd ht List.not_mem_nil, fun bssid _ => hfree bssid, [], rfl, rfl⟩
  exact Asked.scan (s := (.empty, m₀)) hcache haccepts hstart hdistinct

/-! ### The reports -/

theorem matchers_of_completes {e : Event} {bssid : MacAddress} (h : e.completes? = some bssid) :
    (m.handle p e).matchers = m.matchers := by
  rw [handle_of_completes h]
  cases m.requests.pending.get? bssid with
  | none =>
    dsimp only
    split <;> rfl
  | some request => rfl

/-- **What was answered is remembered under the key of its record**, when every request is open
    under the key of its record and no two records share an address or a key. -/
theorem remembered_handleAll (c : Circumstances)
    (hopened : ∀ t ∈ ts, m.openKey? t.bssid = some t.key)
    (hdistinct : ts.Pairwise fun t t' => t.bssid ≠ t'.bssid ∧ t.key ≠ t'.key) :
    let m' := m.handleAll p (ts.map fun t => c.report t.bssid)
    m'.registry = m.registry ∧ m'.matchers = m.matchers ∧
    (∀ key, key ∉ ts.map (·.key) → m'.cache.get? key = m.cache.get? key) ∧
    ∀ t ∈ ts, m'.cache.get? t.key =
      ((c.elements? t.bssid).map fun es => { capturedAt := p.now, elements := es }).or
        (m.cache.get? t.key) := by
  induction ts generalizing m with
  | nil => exact ⟨rfl, rfl, fun _ _ => rfl, fun t ht => (nomatch ht)⟩
  | cons t rest ih =>
    obtain ⟨hfirst, hrest⟩ := List.pairwise_cons.1 hdistinct
    have hcompletes := c.completes_report t.bssid
    have hstep : ∀ key, (m.handle p (c.report t.bssid)).cache.get? key =
        if t.key = key then
          ((c.elements? t.bssid).map fun es => { capturedAt := p.now, elements := es }).or
            (m.cache.get? key)
        else m.cache.get? key := by
      intro key
      rw [get?_cache_handle hcompletes, hopened t List.mem_cons_self, c.answer_report]
      simp only [Option.some.injEq]
    have hopened' : ∀ t' ∈ rest, (m.handle p (c.report t.bssid)).openKey? t'.bssid = some t'.key := by
      intro t' ht'
      rw [openKey?_handle hcompletes, if_neg (hfirst t' ht').1.symm]
      exact hopened t' (List.mem_cons_of_mem _ ht')
    obtain ⟨hregistry, hmatchers, hothers, hown⟩ := ih hopened' hrest
    refine ⟨hregistry.trans (profiles_of_completes hcompletes).1,
      hmatchers.trans (matchers_of_completes hcompletes), fun key hkey => ?_, fun t' ht' => ?_⟩
    · rw [List.map_cons, List.mem_cons, not_or] at hkey
      exact (hothers key hkey.2).trans ((hstep key).trans (if_neg (Ne.symm hkey.1)))
    · rcases List.mem_cons.1 ht' with rfl | ht'
      · have hnew : t'.key ∉ rest.map (·.key) := by
          rw [List.mem_map]
          rintro ⟨t'', ht'', hkey⟩
          exact (hfirst t'' ht'').2 hkey.symm
        exact (hothers t'.key hnew).trans ((hstep t'.key).trans (if_pos rfl))
      · have hsame := (hstep t'.key).trans (if_neg (hfirst t' ht').2)
        rw [← hsame]
        exact hown t' ht'

/-! ### The second time -/

/-- Restoring remembers nothing and asks nothing, and the way to judge stays. -/
theorem restore_rest (m : Manager) (s : PersistedState) :
    (m.restore s).matchers = m.matchers ∧ (m.restore s).cache = m.cache ∧
      (m.restore s).requests = m.requests := by
  have hstart : ∀ (m : Manager) (app : AppIdentity),
      ((m.startWatching app).matchers, (m.startWatching app).cache, (m.startWatching app).requests)
        = (m.matchers, m.cache, m.requests) := by
    intro m app
    unfold startWatching
    split <;> rfl
  have hstop : ∀ (m : Manager) (package : String),
      ((m.stopWatching package).matchers, (m.stopWatching package).cache,
        (m.stopWatching package).requests) = (m.matchers, m.cache, m.requests) := by
    intro m package
    unfold stopWatching
    split <;> rfl
  have hrestore := (foldl_keeps _ (fun m => (m.matchers, m.cache, m.requests))
      (fun m (q : Profile) => hstart m q.owner)
      ((m.registry.restore s).profiles.values.filter (·.isSaved))).trans
    (foldl_keeps { m with registry := m.registry.restore s }
      (fun m => (m.matchers, m.cache, m.requests)) hstop
      (m.watches.keys.filter fun package => !(m.registry.restore s).hasSavedBy package))
  have hparts : ((m.restore s).matchers, (m.restore s).cache, (m.restore s).requests) =
      (m.matchers, m.cache, m.requests) := by
    unfold restore
    dsimp only
    rw [foldl_stopWatching_registry]
    exact hrestore
  obtain ⟨hmatchers, hothers⟩ := Prod.mk.inj hparts
  obtain ⟨hcache, hrequests⟩ := Prod.mk.inj hothers
  exact ⟨hmatchers, hcache, hrequests⟩

end Manager

namespace Command

/-- A record counts for a domain with a class: its key can be derived, some answer is given for
    its address, and by the elements of the last such answer the installed profiles give the
    domain that class. -/
def Contributes (r : Registry) (now : Millis) (answers : List CannedAnswer) (domain : String)
    (c : NetworkClass) (ap : AccessPoint) : Prop :=
  ∃ target ∈ ap.queryTarget?, ∃ a ∈ (answers.filter fun a => a.bssid = target.bssid).getLast?,
    r.Gives .default now (Anqp.Elements.ofList a.elements) ap.roamingConsortium domain c

instance (r : Registry) (now : Millis) (answers : List CannedAnswer) (domain : String)
    (c : NetworkClass) (ap : AccessPoint) : Decidable (Contributes r now answers domain c ap) :=
  inferInstanceAs (Decidable (∃ target ∈ ap.queryTarget?, _))

/-- The scan as the command matches it, of a manager that remembers nothing and asked nothing. -/
theorem group_matchWith {m : Manager} {p : Platform} {aps : List AccessPoint} (c : Circumstances)
    (hmatchers : m.matchers = .default) (hkeyed : m.registry.Keyed) (hcache : m.cache = .empty)
    (hrequests : m.requests = .empty)
    (haccepts : ∀ h bssid first biased, p.acceptsFetch h bssid first biased = true)
    (hdistinct : (aps.filterMap (·.queryTarget?)).Pairwise
      fun t t' => t.bssid ≠ t'.bssid ∧ t.key ≠ t'.key)
    (domain : String) (cls : NetworkClass) :
    (Job.matchWith m p aps c).1.group domain cls =
      aps.filter fun ap => Contributes m.registry p.now c.answers domain cls ap := by
  have hasked := Manager.asked_matchAll hcache hrequests haccepts (hdistinct.imp And.left)
  obtain ⟨calls, hhistory, haddresses⟩ := hasked.calls
  have hreports : c.reports (callsSince m.history (m.matchAll p aps).2.history) =
      (aps.filterMap (·.queryTarget?)).map fun t => c.report t.bssid := by
    rw [hhistory, callsSince_append, c.reports_eq, haddresses, List.map_map]
    rfl
  have hafter := Manager.remembered_handleAll (p := p) c hasked.opened hdistinct
  unfold Job.matchWith
  dsimp only at hafter ⊢
  rw [hreports]
  generalize (m.matchAll p aps).2.handleAll p
    ((aps.filterMap (·.queryTarget?)).map fun t => c.report t.bssid) = m' at hafter ⊢
  obtain ⟨hregistry, hmatchers', -, hremembered⟩ := hafter
  rw [hasked.registry] at hregistry
  rw [hasked.matchers, hmatchers] at hmatchers'
  rw [Manager.group_matchAll (hmatchers' ▸ Matchers.default_ignoreCarriers) (hregistry ▸ hkeyed)]
  refine List.filter_congr fun ap hap => decide_eq_decide.2 ?_
  -- what is remembered of this access point is what was answered for its own address
  have hown : ∀ target, ap.queryTarget? = some target → m'.cache.get? target.key =
      (c.answers.filter fun a => a.bssid = target.bssid).getLast?.map fun a =>
        { capturedAt := p.now, elements := Anqp.Elements.ofList a.elements } := by
    intro target htarget
    rw [hremembered target (List.mem_filterMap.2 ⟨ap, hap, htarget⟩), hasked.cache, hcache,
      c.elements?_eq, Option.map_map]
    exact Option.or_none
  rw [Manager.finds_iff, hregistry, hmatchers']
  constructor
  · rintro ⟨target, snapshot, htarget, hsnapshot, hgives⟩
    rw [hown target htarget, Option.map_eq_some_iff] at hsnapshot
    obtain ⟨a, ha, rfl⟩ := hsnapshot
    exact ⟨target, htarget, a, ha, hgives⟩
  · rintro ⟨target, htarget, a, ha, hgives⟩
    refine ⟨target, { capturedAt := p.now, elements := .ofList a.elements }, htarget, ?_, hgives⟩
    rw [hown target htarget, ha, Option.map_some]

/-! ### What is printed -/

/-- The classes of a domain that have records, each with the labels of its records in their order;
    a record without an address has a question mark in its place. -/
def printedClasses (group : NetworkClass → List AccessPoint) : List (String × Json) :=
  [("HomeNetwork", group .home), ("RoamingNetwork", group .roaming)].filterMap fun (name, aps) =>
    if aps = [] then none
    else some (name, .arr (aps.map fun ap => .str (ap.ssid ++ " (" ++ ap.bssid.getD "?" ++ ")")))

def printedGroups (domains : List String) (group : String → NetworkClass → List AccessPoint) :
    Json :=
  .obj (domains.map fun domain => (domain, .obj (printedClasses (group domain))))

/-- A text prints groups: it denotes, and is written for, the object of the domains under which
    there is a record, in increasing order. -/
def Prints (text : String) (group : String → NetworkClass → List AccessPoint) : Prop :=
  ∃ domains : List String, domains.Pairwise (· < ·) ∧
    (∀ domain, domain ∈ domains ↔ ∃ cls, group domain cls ≠ []) ∧
    text = (printedGroups domains group).indented ∧
    Json.parse? text = some (printedGroups domains group)

theorem readable_printedGroups (domains : List String)
    (group : String → NetworkClass → List AccessPoint) :
    (printedGroups domains group).Readable := by
  refine Json.readable_obj fun m hm => ?_
  obtain ⟨domain, -, rfl⟩ := List.mem_map.1 hm
  refine Json.readable_obj fun m hm => ?_
  obtain ⟨⟨name, aps⟩, -, hm⟩ := List.mem_filterMap.1 hm
  dsimp only at hm
  split at hm
  · cases hm
  · rw [← Option.some.inj hm]
    refine Json.readable_arr fun j hj => ?_
    obtain ⟨ap, -, rfl⟩ := List.mem_map.1 hj
    exact Json.readable_str _

/-- The groups of a domain are printed by their classes. -/
theorem classes_eq_printedClasses {g : MatchGroups} (h : g.Full) {domain : String}
    {byClass : OrderedMap NetworkClass (List AccessPoint)}
    (hdomain : OrderedMap.get? g domain = some byClass) :
    (byClass.entries.map fun aps => (aps.1.name, toJson (aps.2.map Job.label))) =
      printedClasses (g.group domain) := by
  have hclass : ∀ cls, byClass.get? cls =
      if g.group domain cls = [] then none else some (g.group domain cls) := by
    intro cls
    rw [← h.get?_get?, hdomain, Option.bind_some]
  have hlabels : ∀ aps : List AccessPoint, toJson (aps.map Job.label) =
      .arr (aps.map fun ap => .str (ap.ssid ++ " (" ++ ap.bssid.getD "?" ++ ")")) := by
    intro aps
    show Json.arr ((aps.map Job.label).map toJson) = _
    rw [List.map_map]
    rfl
  rw [OrderedMap.entries_eq_filterMap [.home, .roaming] (by decide)
    (fun cls => by cases cls <;> decide)]
  simp only [printedClasses, hclass, hlabels]
  by_cases hhome : g.group domain .home = [] <;> by_cases hroaming : g.group domain .roaming = [] <;>
    simp [hhome, hroaming, NetworkClass.name]

/-- **What is printed of groups** without an empty group tells them, record by record. -/
theorem prints_groupsJson {g : MatchGroups} (h : g.Full) :
    Prints (Job.groupsJson g).indented g.group := by
  have hprinted : Job.groupsJson g = printedGroups (OrderedMap.keys g) g.group := by
    unfold Job.groupsJson printedGroups OrderedMap.keys
    rw [List.map_map]
    refine congrArg Json.obj (List.map_congr_left fun e he => ?_)
    exact congrArg (fun classes => (e.1, Json.obj classes))
      (classes_eq_printedClasses h (OrderedMap.mem_entries_iff.1 he))
  refine ⟨OrderedMap.keys g, ?_, fun domain => ?_, congrArg Json.indented hprinted, ?_⟩
  · rw [OrderedMap.keys, List.pairwise_map]
    exact g.increasing.imp compareOfLessAndEq_eq_lt.1
  · rw [OrderedMap.mem_keys_iff, OrderedMap.contains, Option.isSome_iff_ne_none, ne_eq,
      h.get?_eq_none_iff, not_forall]
    refine exists_congr fun cls => ?_
    rw [h.get?_get?]
    by_cases hempty : g.group domain cls = [] <;> simp [hempty]
  · rw [hprinted]
    exact (readable_printedGroups _ _).parse?_text .indented

/-- **The match command prints what matching each record directly gives.**  When no two records
    whose key can be derived share an address or a key, it prints the groups in which a record
    stands under a domain and a class just when it counts for them, in the order of the scan; of
    the elements of one kind in an answer the last counts. -/
theorem match_prints_direct_groups {d : Disk} {now : Millis} {i : Invocation} {c : Configuration}
    {aps : List AccessPoint} {answers : List CannedAnswer} {s : PersistedState}
    {carriers : OrderedMap String Int32}
    (hsettings : readConfiguration d i.config = .ok c)
    (hinputs : i.request.load d = .ok (.matchScan aps answers))
    (hstate : readState d (i.statePath c.settings) = .ok s)
    (hcarriers : readCarriers i.carriers = .ok carriers)
    (hdistinct : (aps.filterMap (·.queryTarget?)).Pairwise
      fun t t' => t.bssid ≠ t'.bssid ∧ t.key ≠ t'.key) :
    (∃ text, (i.run d now).outcome = .done text ∧
      Prints text fun domain cls => aps.filter fun ap =>
        Contributes (Registry.empty.restore s) now answers domain cls ap) ∧
    ∀ a ∈ answers, ∀ kind, (Anqp.Elements.ofList a.elements).get? kind =
      (a.elements.filter fun e => e.kind = kind).getLast? := by
  refine ⟨?_, fun a _ kind => Anqp.Elements.get?_ofList a.elements kind⟩
  have hrest := Manager.restore_rest (Manager.new c.settings .default) s
  have hregistry := Manager.restore_registry (Manager.new c.settings .default) s
  obtain ⟨start, hstart⟩ : ∃ start, (Manager.new c.settings .default).restore s = start := ⟨_, rfl⟩
  rw [hstart] at hrest hregistry
  obtain ⟨hmatchers, hcache, hrequests⟩ := hrest
  let platform := standIn now carriers (d.canReplace (i.statePath c.settings))
    { Circumstances.quiet with answers } start.history
  let groups := (Job.matchWith start platform aps { Circumstances.quiet with answers }).1
  have hgroup : groups.group = fun domain cls => aps.filter fun ap =>
      Contributes (Registry.empty.restore s) now answers domain cls ap := by
    funext domain cls
    have hkeyed : start.registry.Keyed := hregistry ▸ Registry.keyed_restore _ s
    have h := group_matchWith (p := platform) { Circumstances.quiet with answers } hmatchers hkeyed
      hcache hrequests (fun _ _ _ _ => rfl) hdistinct domain cls
    rw [hregistry] at h
    exact h
  have hprints := prints_groupsJson (g := groups) (Manager.full_matchAll _ _ _)
  rw [hgroup] at hprints
  refine ⟨(Job.groupsJson groups).indented, ?_, hprints⟩
  unfold Invocation.run
  rw [hsettings]
  dsimp only
  rw [Request.run_eq hinputs hstate hcarriers]
  dsimp only
  rw [hstart]
  rfl

def cafeDisk : Disk where
  look path :=
    if path = "scan" then .file
      "[\x7b\"ssid\":\"cafe\",\"bssid\":\"02:00:00:00:00:01\",\"passpoint\":true\x7d]"
    else if path = "anqp" then .file
      ("[\x7b\"bssid\":\"02:00:00:00:00:01\",\"elements\":[" ++
        "\x7b\"type\":\"DomainName\",\"value\":[\"a\"]\x7d]\x7d]")
    else if path = "state" then .file
      ("\x7b\"profiles\":[\x7b\"config\":\x7b\"home_sp\":" ++
        "\x7b\"fqdn\":\"a\",\"friendly_name\":\"\"\x7d\x7d,\"index\":0,\"owner\":" ++
        "\x7b\"uid\":1,\"package\":\"p\"\x7d,\"source\":\"Saved\",\"credential_type\":\"User\"," ++
        "\"auto_join\":true,\"has_ever_connected\":false\x7d],\"next_index\":1\x7d")
    else .nothing
  canReplace _ := true

def cafeMatch : Invocation :=
  { config := "settings", state := some "state", carriers := [],
    request := .matchScan "scan" (some "anqp") }

def cafe : AccessPoint := AccessPoint.ofNames "cafe" "02:00:00:00:00:01"

/-- The access point is at home under the domain that it answers with, and nowhere else. -/
theorem match_prints_direct_groups_at_home :
    (cafeMatch.run cafeDisk 0).outcome = .done ("\x7b\n" ++
      "  \"a\": \x7b\n" ++
      "    \"HomeNetwork\": [\n" ++
      "      \"cafe (02:00:00:00:00:01)\"\n" ++
      "    ]\n" ++
      "  \x7d\n" ++
      "\x7d") := by
  let s : PersistedState :=
    { profiles := [{
        config := {
          homeSp := some { fqdn := "a", friendlyName := "", ois := [] }, credential := none,
          updateIdentifier := 0, expiration := none, serviceNames := .empty, carrierId := none }
        index := 0, owner := { uid := 1, package := "p" }, source := .saved
        credentialType := .user, autoJoin := true, hasEverConnected := false }]
      nextIndex := 1 }
  let answers : List CannedAnswer :=
    [{ bssid := ⟨0x020000000001⟩, elements := [.domainName ["a"]] }]
  have hinputs : cafeMatch.request.load cafeDisk = .ok (.matchScan [cafe] answers) := by
    decide +kernel
  have hstate : readState cafeDisk "state" = .ok s := by decide +kernel
  have hsettings : readConfiguration cafeDisk cafeMatch.config =
      .ok { settings := .default, isPassedOver := false } := by decide +kernel
  have hcarriers : readCarriers cafeMatch.carriers = .ok .empty := by decide +kernel
  obtain ⟨⟨text, hprinted, domains, hsorted, hdomains, rfl, -⟩, -⟩ :=
    @match_prints_direct_groups cafeDisk 0 cafeMatch _ _ _ _ _ hsettings hinputs hstate hcarriers
      (by decide +kernel)
  -- the only profile is that of the domain `a`, so there is no other domain to print
  have hnames : ∀ q ∈ (Registry.empty.restore s).profiles.values, q.fqdn = "a" := by decide +kernel
  have honly : ∀ domain, domain ∈ domains ↔ domain ∈ ["a"] := by
    intro domain
    rw [hdomains, List.mem_singleton]
    constructor
    · rintro ⟨cls, hgroup⟩
      obtain ⟨ap, hap⟩ := List.exists_mem_of_ne_nil _ hgroup
      obtain ⟨_, -, _, -, q, hq, rfl, -⟩ := of_decide_eq_true (List.mem_filter.1 hap).2
      exact hnames q hq
    · rintro rfl
      exact ⟨.home, by decide +kernel⟩
  obtain rfl : domains = ["a"] := List.perm_singleton.1
    ((List.perm_ext_iff_of_nodup hsorted.nodup (List.nodup_singleton "a")).2 honly)
  rw [hprinted]
  decide +kernel

end Command

end Hotspot
