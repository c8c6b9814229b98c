/-
  Hotspot/Proofs/Exchanges.lean
  =============================
  **Requests for metadata, and what becomes of them.**

  The manager makes a call when it asks an access point, but none when an answer comes in, and
  the call does not say which key the answer is for.  So the traffic of a run is told here by a
  log of its own: which access point was asked for metadata under which key, and which answers
  and failures were reported.  It is read off the calls and the replies of the operations.

  The log decides what the manager may have on record (`InStep`): which requests are without an
  answer and for which keys, how many there are, and what is remembered under a key.  One look
  at an access point, one report and one sweep each keep log and manager in step, and everything
  else leaves both alone.
-/
import Hotspot.Proofs.Frames

namespace Hotspot

/-! ### The traffic -/

/-- One event of the traffic: an access point was asked for metadata to remember under a key, or
    an answer, or a failure, was reported for it.  What is `taken` is what the reporter was told. -/
inductive Exchange where
  | asked (bssid : MacAddress) (key : IdentityKey)
  | reported (bssid : MacAddress) (answer : Option Anqp.Elements) (taken : Bool)
deriving DecidableEq

namespace Exchange

def asked? : Exchange → Option MacAddress
  | .asked bssid _ => some bssid
  | .reported .. => none

def isTaken : Exchange → Bool
  | .asked .. => false
  | .reported _ _ taken => taken

end Exchange

def Call.accepted? : Call → Option MacAddress
  | .issueFetch bssid _ _ true => some bssid
  | _ => none

/-- The traffic so far, the latest first. -/
abbrev ExchangeLog := List Exchange

namespace ExchangeLog

/-- The key of the request to an access point that nothing was reported for since. -/
def openKey? : ExchangeLog → MacAddress → Option IdentityKey
  | [], _ => none
  | .asked b key :: earlier, bssid => if b = bssid then some key else openKey? earlier bssid
  | .reported b _ _ :: earlier, bssid => if b = bssid then none else openKey? earlier bssid

def lastAnswer? : ExchangeLog → IdentityKey → Option Anqp.Elements
  | [], _ => none
  | .asked _ _ :: earlier, key => lastAnswer? earlier key
  | .reported _ none _ :: earlier, key => lastAnswer? earlier key
  | .reported bssid (some es) _ :: earlier, key =>
    if openKey? earlier bssid = some key then some es else lastAnswer? earlier key

/-- No access point is asked while a request to it is open, and a report is taken exactly when
    one is. -/
def Orderly : ExchangeLog → Prop
  | [] => True
  | .asked bssid _ :: earlier => openKey? earlier bssid = none ∧ Orderly earlier
  | .reported bssid _ taken :: earlier =>
    taken = (openKey? earlier bssid).isSome ∧ Orderly earlier

variable {log : ExchangeLog} {bssid : MacAddress} {key : IdentityKey}

theorem Orderly.of_append {later : ExchangeLog} (h : Orderly (later ++ log)) : Orderly log := by
  induction later with
  | nil => exact h
  | cons e rest ih => cases e <;> exact ih h.2

/-- A request that is not open any more was reported on, and the report was taken. -/
theorem Orderly.reported_between {between : ExchangeLog}
    (h : Orderly (between ++ .asked bssid key :: log))
    (hclosed : openKey? (between ++ .asked bssid key :: log) bssid = none) :
    ∃ answer, .reported bssid answer true ∈ between := by
  induction between with
  | nil => simp [openKey?] at hclosed
  | cons e rest ih =>
    cases e with
    | asked b k =>
      by_cases hb : b = bssid
      · simp [openKey?, hb] at hclosed
      · simp only [List.cons_append, openKey?, if_neg hb] at hclosed
        obtain ⟨answer, hmem⟩ := ih h.2 hclosed
        exact ⟨answer, List.mem_cons_of_mem _ hmem⟩
    | reported b answer taken =>
      -- the report closes the request, unless it was closed before or is about another one
      by_cases hopen : openKey? (rest ++ .asked bssid key :: log) bssid = none
      · obtain ⟨answer', hmem⟩ := ih h.2 hopen
        exact ⟨answer', List.mem_cons_of_mem _ hmem⟩
      · by_cases hb : b = bssid
        · have htaken : taken = true := by
            rw [h.1, hb, Option.isSome_iff_ne_none]
            exact hopen
          exact ⟨answer, by simp [hb, htaken]⟩
        · simp only [List.cons_append, openKey?, if_neg hb] at hclosed
          exact absurd hclosed hopen

/-- **Single flight.**  Between two requests to an access point a report was taken. -/
theorem Orderly.single_flight {later between earlier : ExchangeLog} {key' : IdentityKey}
    (h : Orderly (later ++ .asked bssid key :: (between ++ .asked bssid key' :: earlier))) :
    ∃ answer, .reported bssid answer true ∈ between := by
  obtain ⟨hclosed, hrest⟩ := h.of_append
  exact hrest.reported_between hclosed

end ExchangeLog

namespace Manager

/-- The state after a scan that reports one access point. -/
def sight (m : Manager) (p : Platform) (ap : AccessPoint) : Manager := (m.matchAll p [ap]).2

/-- What matching an access point asks: at most the access point itself, for metadata to
    remember under the key that it has now. -/
def asks (m : Manager) (p : Platform) (ap : AccessPoint) : ExchangeLog :=
  match ap.queryTarget? with
  | none => []
  | some target =>
    ((callsSince m.history (m.matchOne p ap).2.history).filterMap Call.accepted?).map
      (Exchange.asked · target.key)

def scanAsks : Manager → Platform → List AccessPoint → ExchangeLog
  | _, _, [] => []
  | m, p, ap :: rest => (m.sight p ap).scanAsks p rest ++ m.asks p ap

def exchanged (m : Manager) (p : Platform) : Operation → ExchangeLog
  | .matchOne ap => m.asks p ap
  | .matchAll aps => m.scanAsks p aps
  | .fetchResult bssid es => [.reported bssid (some es) (m.fetchResult p bssid es).1]
  | .fetchFailure bssid => [.reported bssid none (m.fetchFailure bssid).1]
  | .handle (.fetchResult bssid es) => [.reported bssid (some es) (m.fetchResult p bssid es).1]
  | .handle (.fetchFailure bssid) => [.reported bssid none (m.fetchFailure bssid).1]
  | _ => []

def traffic : Manager → List Step → ExchangeLog
  | _, [] => []
  | m, s :: rest => (m.perform s.1 s.2).2.traffic rest ++ m.exchanged s.1 s.2

/-! ### Single steps -/

variable (m : Manager) (p : Platform)

def requested (target : QueryTarget) (first biased : Bool) : Manager :=
  { m.record (.issueFetch target.bssid first biased true) with
    requests := m.requests.issue m.settings.requests p.now target.bssid target.key }.increment
      .requestIssued

theorem callsSince_requested (target : QueryTarget) (first biased : Bool) :
    callsSince m.history (m.requested p target first biased).history =
      [.issueFetch target.bssid first biased true, .increment .requestIssued] :=
  callsSince_append [_, _] m.history

/-- Matching an access point changes nothing, or asks it when no request to it is open; a
    refusal is remembered as a call and nothing else. -/
theorem matchOne_cases (ap : AccessPoint) :
    (m.matchOne p ap).2 = m ∨
    ∃ target first biased, ap.queryTarget? = some target ∧
      m.requests.pending.get? target.bssid = none ∧
      (m.matchOne p ap = ([], m.record (.issueFetch target.bssid first biased false)) ∨
        m.matchOne p ap = ([], m.requested p target first biased)) := by
  unfold matchOne
  cases htarget : ap.queryTarget? with
  | none => exact Or.inl rfl
  | some target =>
    dsimp only
    cases m.cache.get? target.key with
    | some s => exact Or.inl rfl
    | none =>
      unfold requestFetch
      by_cases hmay : m.requests.mayRequest p.now target.bssid = true
      · refine Or.inr ⟨target, m.requests.isFirstAttempt target.bssid,
          target.release.any (·.hasHomeRealmQuery), rfl, ?_, ?_⟩
        · have hpending : m.requests.pending.contains target.bssid = false := by
            simpa using (Bool.and_eq_true_iff.1 hmay).1
          simpa [OrderedMap.contains] using hpending
        · dsimp only
          rw [if_pos hmay]
          split
          · rename_i haccepted
            rw [haccepted]
            exact Or.inr rfl
          · rename_i hrefused
            rw [Bool.not_eq_true] at hrefused
            rw [hrefused]
            exact Or.inl rfl
      · dsimp only
        rw [if_neg hmay]
        exact Or.inl rfl

theorem asks_of_requested {ap : AccessPoint} {target : QueryTarget} {first biased : Bool}
    (htarget : ap.queryTarget? = some target)
    (h : m.matchOne p ap = ([], m.requested p target first biased)) :
    m.asks p ap = [.asked target.bssid target.key] := by
  simp only [asks, htarget, h, callsSince_requested]
  rfl

theorem asks_of_refused {ap : AccessPoint} {target : QueryTarget} {first biased : Bool}
    (htarget : ap.queryTarget? = some target)
    (h : m.matchOne p ap = ([], m.record (.issueFetch target.bssid first biased false))) :
    m.asks p ap = [] := by
  simp only [asks, htarget, h, callsSince_record]
  rfl

theorem asks_of_unchanged {ap : AccessPoint} (h : (m.matchOne p ap).2 = m) :
    m.asks p ap = [] := by
  unfold asks
  rw [h, callsSince_self]
  cases ap.queryTarget? <;> rfl

/-- A report that nobody asked for changes nothing on record. -/
theorem fetchResult_of_free {bssid : MacAddress} (h : m.requests.pending.get? bssid = none)
    (es : Anqp.Elements) : m.fetchResult p bssid es = (false, m.increment .responseDropped) := by
  simp [fetchResult, RequestTracker.complete, h]

theorem fetchFailure_of_free {bssid : MacAddress} (h : m.requests.pending.get? bssid = none) :
    m.fetchFailure bssid = (false, m) := by
  simp [fetchFailure, RequestTracker.complete, h]

theorem sight_eq (ap : AccessPoint) :
    m.sight p ap = (groupMatches p ap (m.matchOne p ap).1 (.empty, (m.matchOne p ap).2)).2 := rfl

/-- Carriers are asked for whatever groups there are. -/
theorem groupMatches_state (ap : AccessPoint) (found : List ProfileMatch) (g g' : MatchGroups) :
    (groupMatches p ap found (g, m)).2 = (groupMatches p ap found (g', m)).2 := by
  induction found generalizing m g g' with
  | nil => rfl
  | cons f rest ih => exact ih _ _ _

/-- **A scan is taken in one access point after the other.** -/
theorem matchAll_state (aps : List AccessPoint) :
    (m.matchAll p aps).2 = aps.foldl (fun m ap => m.sight p ap) m := by
  have hany : ∀ g : MatchGroups, (aps.foldl (fun (s : MatchGroups × Manager) ap =>
      groupMatches p ap (s.2.matchOne p ap).1 (s.1, (s.2.matchOne p ap).2)) (g, m)).2 =
        aps.foldl (fun m ap => m.sight p ap) m := by
    induction aps generalizing m with
    | nil =>
      intro g
      rfl
    | cons ap rest ih =>
      intro g
      have hsight : (groupMatches p ap (m.matchOne p ap).1 (g, (m.matchOne p ap).2)).2 =
          m.sight p ap := groupMatches_state ..
      rw [List.foldl_cons, List.foldl_cons, ← hsight]
      exact ih _ _
  exact hany .empty

end Manager

/-! ### Counting -/

/-- A counter counts the calls that increment it. -/
theorem Telemetry.count_ofHistory (h : History) (c : Counter) :
    (ofHistory h).count c = UInt64.ofNat (h.count (.increment c)) := by
  induction h with
  | nil => rfl
  | cons call earlier ih =>
    rw [ofHistory]
    by_cases hcall : call = .increment c
    · subst hcall
      simp [observe, increment, ih]
    · rw [List.count_cons_of_ne hcall, ← ih]
      cases call with
      | increment c' =>
        have hne : c ≠ c' := fun hc => hcall (hc ▸ rfl)
        simp [observe, increment, hne]
      | _ => rfl

namespace Manager

/-! ### Log and manager -/

/-- What the log says, the manager has on record. -/
structure InStep (log : ExchangeLog) (m : Manager) : Prop where
  orderly : log.Orderly
  accepted : m.history.filterMap Call.accepted? = log.filterMap Exchange.asked?
  counted : m.history.count (.increment .requestIssued) =
    (m.history.filterMap Call.accepted?).length
  conserved : (log.filterMap Exchange.asked?).length =
    log.countP Exchange.isTaken + m.requests.pending.size
  open_key : ∀ bssid, (m.requests.pending.get? bssid).map (·.key) = log.openKey? bssid
  held_off : ∀ bssid, m.requests.pending.contains bssid = true →
    m.requests.holdOffs.contains bssid = true
  remembered : ∀ key s, m.cache.get? key = some s → log.lastAnswer? key = some s.elements

theorem inStep_new (settings : Settings) (matchers : Matchers) :
    InStep [] (new settings matchers) :=
  ⟨trivial, rfl, rfl, rfl, fun _ => rfl, fun _ h => (nomatch h), fun _ _ h => (nomatch h)⟩

namespace InStep

variable {log : ExchangeLog} {m : Manager} {p : Platform}

/-- Only requests, metadata and calls about them matter. -/
theorem congr {m' : Manager} (hm : InStep log m) (hrequests : m'.requests = m.requests)
    (hcache : m'.cache = m.cache)
    (haccepted : m'.history.filterMap Call.accepted? = m.history.filterMap Call.accepted?)
    (hcounted : m'.history.count (.increment .requestIssued) =
      m.history.count (.increment .requestIssued)) : InStep log m' where
  orderly := hm.orderly
  accepted := haccepted.trans hm.accepted
  counted := by rw [hcounted, haccepted, hm.counted]
  conserved := hrequests ▸ hm.conserved
  open_key := hrequests ▸ hm.open_key
  held_off := hrequests ▸ hm.held_off
  remembered := hcache ▸ hm.remembered

theorem record (hm : InStep log m) {c : Call} (haccepted : c.accepted? = none)
    (hcounted : c ≠ .increment .requestIssued) : InStep log (m.record c) :=
  hm.congr rfl rfl (List.filterMap_cons_none haccepted) (List.count_cons_of_ne hcounted)

theorem setWatches (hm : InStep log m) (watches : WatchList) : InStep log { m with watches } :=
  hm.congr rfl rfl rfl rfl

theorem startWatching (hm : InStep log m) (app : AppIdentity) :
    InStep log (m.startWatching app) := by
  unfold Manager.startWatching
  split
  · exact hm
  · exact (hm.setWatches _).record rfl (by simp)

/-- The upkeep of profiles has no bearing on the traffic. -/
theorem unmoved (log : ExchangeLog) : Unmoved (InStep log) where
  registry m r hm := hm.congr rfl rfl rfl rfl
  call m c hc hm := by
    apply hm.record
    · cases c <;> first | rfl | cases hc
    · rintro rfl
      cases hc
  stop m package hm := by
    unfold stopWatching
    split
    · exact hm
    · exact (hm.setWatches _).record rfl (by simp)

/-! #### Looks at access points -/

theorem requested (hm : InStep log m) {target : QueryTarget} (first biased : Bool)
    (hfree : m.requests.pending.get? target.bssid = none) :
    InStep (.asked target.bssid target.key :: log) (m.requested p target first biased) where
  orderly := by
    refine ⟨?_, hm.orderly⟩
    rw [← hm.open_key, hfree]
    rfl
  accepted := congrArg (target.bssid :: ·) hm.accepted
  counted := by
    have haccepted : (m.requested p target first biased).history.filterMap Call.accepted? =
        target.bssid :: m.history.filterMap Call.accepted? := rfl
    rw [haccepted, List.length_cons, ← hm.counted]
    simp [Manager.requested, Manager.increment]
  conserved := by
    have hsize : (m.requested p target first biased).requests.pending.size =
        m.requests.pending.size + 1 := OrderedMap.size_insert _ hfree
    have hconserved := hm.conserved
    simp only [List.filterMap_cons, Exchange.asked?, List.length_cons, hsize,
      List.countP_cons, Exchange.isTaken]
    simp only [Bool.false_eq_true, if_false]
    omega
  open_key := by
    intro bssid
    have hget : (m.requested p target first biased).requests.pending.get? bssid =
        if bssid = target.bssid then some { key := target.key, issuedAt := p.now }
        else m.requests.pending.get? bssid := OrderedMap.get?_insert ..
    rw [hget, ExchangeLog.openKey?]
    by_cases hb : bssid = target.bssid
    · simp [hb]
    · rw [if_neg hb, if_neg (Ne.symm hb), hm.open_key]
  held_off := by
    intro bssid
    have hpending : (m.requested p target first biased).requests.pending.contains bssid =
        (decide (bssid = target.bssid) || m.requests.pending.contains bssid) :=
      OrderedMap.contains_insert ..
    have hheld : (m.requested p target first biased).requests.holdOffs.contains bssid =
        (decide (bssid = target.bssid) || m.requests.holdOffs.contains bssid) :=
      OrderedMap.contains_insert ..
    rw [hpending, hheld, Bool.or_eq_true, Bool.or_eq_true]
    exact Or.imp_right (hm.held_off bssid)
  remembered := hm.remembered

theorem matchOne (hm : InStep log m) (ap : AccessPoint) :
    InStep (m.asks p ap ++ log) (m.matchOne p ap).2 := by
  rcases m.matchOne_cases p ap with h | ⟨target, first, biased, htarget, hfree, h | h⟩
  · rw [asks_of_unchanged m p h, h]
    exact hm
  · rw [asks_of_refused m p htarget h, h]
    exact hm.record rfl (by simp)
  · rw [asks_of_requested m p htarget h, h]
    exact hm.requested first biased hfree

theorem sight (hm : InStep log m) (ap : AccessPoint) :
    InStep (m.asks p ap ++ log) (m.sight p ap) := by
  rw [sight_eq]
  exact (unmoved _).groupMatches ap _ _ (hm.matchOne ap)

theorem matchAll (hm : InStep log m) (aps : List AccessPoint) :
    InStep (m.scanAsks p aps ++ log) (m.matchAll p aps).2 := by
  rw [matchAll_state]
  induction aps generalizing log m with
  | nil => exact hm
  | cons ap rest ih =>
    rw [scanAsks, List.append_assoc, List.foldl_cons]
    exact ih (hm.sight ap)

/-! #### Reports and sweeps -/

/-- A report that nobody asked for is noted and not taken. -/
theorem dropped (hm : InStep log m) {bssid : MacAddress}
    (hfree : m.requests.pending.get? bssid = none) (answer : Option Anqp.Elements) :
    InStep (.reported bssid answer false :: log) m := by
  have hclosed : log.openKey? bssid = none := by
    rw [← hm.open_key, hfree]
    rfl
  refine ⟨?_, hm.accepted, hm.counted, ?_, ?_, hm.held_off, ?_⟩
  · exact ⟨by rw [hclosed]; rfl, hm.orderly⟩
  · simpa [List.filterMap_cons, Exchange.asked?, Exchange.isTaken] using hm.conserved
  · intro b
    rw [hm.open_key, ExchangeLog.openKey?]
    by_cases hb : bssid = b
    · rw [if_pos hb, ← hb, hclosed]
    · rw [if_neg hb]
  · intro key s hs
    rw [← hm.remembered key s hs]
    cases answer with
    | none => rfl
    | some es => simp [ExchangeLog.lastAnswer?, hclosed]

/-- A report that was asked for is taken, and an answer remembered under the key of the
    request. -/
theorem taken (hm : InStep log m) {bssid : MacAddress} {request : PendingRequest}
    (hopen : m.requests.pending.get? bssid = some request) (answer : Option Anqp.Elements) :
    InStep (.reported bssid answer true :: log)
      { m with
        requests := (m.requests.complete bssid answer.isSome).2
        cache := answer.elim m.cache (m.cache.store p.now request.key) } := by
  have hkey : log.openKey? bssid = some request.key := by
    rw [← hm.open_key, hopen]
    rfl
  have hcomplete : (m.requests.complete bssid answer.isSome).2 =
      { pending := m.requests.pending.erase bssid
        holdOffs := if answer.isSome then m.requests.holdOffs.erase bssid
          else m.requests.holdOffs } := by
    simp [RequestTracker.complete, hopen]
  rw [hcomplete]
  refine ⟨?_, hm.accepted, hm.counted, ?_, ?_, ?_, ?_⟩
  · exact ⟨by rw [hkey]; rfl, hm.orderly⟩
  · have hsize := OrderedMap.size_erase hopen
    have hconserved := hm.conserved
    simp only [List.filterMap_cons, Exchange.asked?, List.countP_cons, Exchange.isTaken, if_true]
    omega
  · intro b
    rw [OrderedMap.get?_erase, ExchangeLog.openKey?]
    by_cases hb : b = bssid
    · simp [hb]
    · rw [if_neg hb, if_neg (Ne.symm hb), hm.open_key]
  · intro b hb
    rw [OrderedMap.contains_erase, Bool.and_eq_true] at hb
    have hheld := hm.held_off b hb.2
    cases answer with
    | none => exact hheld
    | some es => simp [OrderedMap.contains_erase, hheld, of_decide_eq_true hb.1]
  · intro key s hs
    cases answer with
    | none => exact hm.remembered key s hs
    | some es =>
      have hget : (m.cache.store p.now request.key es).get? key =
          if key = request.key then some { capturedAt := p.now, elements := es }
          else m.cache.get? key := OrderedMap.get?_insert ..
      rw [Option.elim, hget] at hs
      rw [ExchangeLog.lastAnswer?, hkey]
      by_cases hk : key = request.key
      · rw [if_pos hk, Option.some.injEq] at hs
        rw [if_pos (congrArg some hk.symm), ← hs]
      · rw [if_neg hk] at hs
        rw [if_neg (fun h => hk (Option.some.inj h).symm)]
        exact hm.remembered key s hs

theorem fetchResult (hm : InStep log m) (bssid : MacAddress) (es : Anqp.Elements) :
    InStep (.reported bssid (some es) (m.fetchResult p bssid es).1 :: log)
      (m.fetchResult p bssid es).2 := by
  cases hrequest : m.requests.pending.get? bssid with
  | none =>
    rw [m.fetchResult_of_free p hrequest]
    exact (hm.dropped hrequest (some es)).record rfl (by simp)
  | some request =>
    have htaken := hm.taken (p := p) hrequest (some es)
    have hresult : m.fetchResult p bssid es = (true, { m with
        requests := (m.requests.complete bssid true).2
        cache := m.cache.store p.now request.key es }) := by
      simp [Manager.fetchResult, RequestTracker.complete, hrequest]
    rw [hresult]
    exact htaken

theorem fetchFailure (hm : InStep log m) (bssid : MacAddress) :
    InStep (.reported bssid none (m.fetchFailure bssid).1 :: log) (m.fetchFailure bssid).2 := by
  cases hrequest : m.requests.pending.get? bssid with
  | none =>
    rw [m.fetchFailure_of_free hrequest]
    exact hm.dropped hrequest none
  | some request =>
    have htaken := hm.taken (p := .obliging) hrequest none
    have hresult : m.fetchFailure bssid =
        (true, { m with requests := (m.requests.complete bssid false).2 }) := by
      simp [Manager.fetchFailure, RequestTracker.complete, hrequest]
    rw [hresult]
    exact htaken

/-- A sweep forgets metadata and hold-offs, but no hold-off of a request without an answer. -/
theorem sweep (hm : InStep log m) : InStep log (m.sweep p).2 := by
  refine ⟨hm.orderly, hm.accepted, hm.counted, hm.conserved, hm.open_key, ?_, ?_⟩
  · intro bssid hpending
    obtain ⟨held, hheld⟩ := OrderedMap.contains_eq_true_iff.1 (hm.held_off bssid hpending)
    refine OrderedMap.contains_eq_true_iff.2 ⟨held, ?_⟩
    have hkept : (m.requests.keptHoldOffs m.settings.requests p.now).get? bssid = some held := by
      rw [RequestTracker.keptHoldOffs, OrderedMap.get?_filter, hheld, Option.filter_some, if_pos]
      exact Bool.or_eq_true_iff.2 (Or.inl hpending)
    exact hkept
  · intro key s hs
    have hfresh : (m.cache.fresh p.now m.settings.cache.staleness).get? key = some s := hs
    rw [MetadataCache.fresh, OrderedMap.get?_filter, Option.filter_eq_some_iff] at hfresh
    exact hm.remembered key s hfresh.1

/-! #### Operations and runs -/

/-- **Each operation keeps log and manager in step.** -/
theorem perform (hm : InStep log m) (op : Operation) :
    InStep (m.exchanged p op ++ log) (m.perform p op).2 := by
  by_cases hradio : op.isOfRadio = true
  · cases op with
    | matchOne ap => exact hm.matchOne ap
    | matchAll aps => exact hm.matchAll aps
    | sweep => exact hm.sweep
    | fetchResult bssid es => exact hm.fetchResult bssid es
    | fetchFailure bssid => exact hm.fetchFailure bssid
    | handle event =>
      cases event with
      | fetchResult bssid es => exact hm.fetchResult bssid es
      | fetchFailure bssid => exact hm.fetchFailure bssid
      | _ => cases hradio
    | _ => cases hradio
  · have hsilent : m.exchanged p op = [] := by
      unfold exchanged
      split <;> first | rfl | exact absurd rfl hradio
    rw [hsilent]
    exact (unmoved log).perform (fun _ app _ _ hm₁ => hm₁.startWatching app)
      (fun h => absurd h hradio) hm

theorem run (hm : InStep log m) (steps : List Step) :
    InStep (m.traffic steps ++ log) (m.run steps) := by
  induction steps generalizing log m with
  | nil => exact hm
  | cons s rest ih =>
    rw [traffic, List.append_assoc]
    exact ih (hm.perform s.2)

end InStep

/-! ### Refusals -/

theorem matchOne_of_refused {m : Manager} {p : Platform} {ap : AccessPoint} {bssid : MacAddress}
    {first biased : Bool}
    (h : .issueFetch bssid first biased false ∈ callsSince m.history (m.matchOne p ap).2.history) :
    m.matchOne p ap = ([], m.record (.issueFetch bssid first biased false)) := by
  rcases m.matchOne_cases p ap with he | ⟨target, first', biased', -, -, he | he⟩
  · rw [he, callsSince_self] at h
    cases h
  · rw [he, callsSince_record, List.mem_singleton] at h
    rw [he, h]
  · rw [he, callsSince_requested] at h
    simp at h

theorem sight_of_refused {m : Manager} {p : Platform} {ap : AccessPoint} {bssid : MacAddress}
    {first biased : Bool}
    (h : .issueFetch bssid first biased false ∈ callsSince m.history (m.sight p ap).history) :
    m.sight p ap = m.record (.issueFetch bssid first biased false) := by
  rw [sight_eq] at h ⊢
  rcases m.matchOne_cases p ap with hidle | ⟨target, first', biased', -, -, he⟩
  · -- nothing was asked of the access point, and new carriers are no request to the radio
    obtain ⟨cs, hhistory, hcs⟩ := (unmoved_calls m).groupMatches (p := p) ap (m.matchOne p ap).1
      (.empty, (m.matchOne p ap).2) ⟨[], by rw [hidle]; rfl, fun _ hc => (nomatch hc)⟩
    rw [hhistory, callsSince_append, List.mem_reverse] at h
    exact absurd (hcs _ h) (by simp [Call.isUpkeep])
  · have hfound : (m.matchOne p ap).1 = [] := by
      rcases he with he | he <;> rw [he]
    rw [hfound] at h ⊢
    exact congrArg Prod.snd (matchOne_of_refused h)

/-- **Requests and reports pair up.**  In every run the log of the traffic has the requests that
    the radio accepted, in their order, and

    * between two requests to one access point a report about it was taken, and a report is
      taken exactly when a request is open;
    * as many requests are counted as were accepted, and each of them was answered or is
      without an answer, for the key that it was made for, and then held off;
    * what is remembered under a key is the latest answer to a request that was made for it.

    A report that nobody asked for changes nothing but, for an answer, a counter, and a refused
    request nothing at all, whether in a single look or in a scan, which is one look after the
    other. -/
theorem requests_and_reports_pair_up (settings : Settings) (matchers : Matchers)
    (steps : List Step) :
    let m := (new settings matchers).run steps
    let log := (new settings matchers).traffic steps
    let issued := m.history.filterMap Call.accepted?
    issued = log.filterMap Exchange.asked? ∧
    (∀ later between earlier bssid key key',
      log = later ++ .asked bssid key :: (between ++ .asked bssid key' :: earlier) →
      ∃ answer, .reported bssid answer true ∈ between) ∧
    (∀ later earlier bssid answer taken, log = later ++ .reported bssid answer taken :: earlier →
      taken = (ExchangeLog.openKey? earlier bssid).isSome) ∧
    m.history.count (.increment .requestIssued) = issued.length ∧
    (Telemetry.ofHistory m.history).count .requestIssued = .ofNat issued.length ∧
    issued.length = log.countP Exchange.isTaken + m.requests.pending.size ∧
    (∀ bssid, (m.requests.pending.get? bssid).map (·.key) = log.openKey? bssid) ∧
    (∀ bssid, m.requests.pending.contains bssid = true →
      m.requests.holdOffs.contains bssid = true) ∧
    (∀ key s, m.cache.get? key = some s → log.lastAnswer? key = some s.elements) ∧
    (∀ p bssid, m.requests.pending.get? bssid = none →
      (∀ es, m.fetchResult p bssid es = (false, m.increment .responseDropped)) ∧
      m.fetchFailure bssid = (false, m)) ∧
    (∀ (m : Manager) p ap bssid first biased,
      (.issueFetch bssid first biased false ∈ callsSince m.history (m.matchOne p ap).2.history →
        m.matchOne p ap = ([], m.record (.issueFetch bssid first biased false))) ∧
      (.issueFetch bssid first biased false ∈ callsSince m.history (m.sight p ap).history →
        m.sight p ap = m.record (.issueFetch bssid first biased false))) ∧
    (∀ (m : Manager) p aps, (m.matchAll p aps).2 = aps.foldl (fun m ap => m.sight p ap) m) := by
  intro m log issued
  have hm : InStep log m := by
    have hrun := (inStep_new settings matchers).run steps
    rwa [List.append_nil] at hrun
  refine ⟨hm.accepted, ?_, ?_, hm.counted, ?_, ?_, hm.open_key, hm.held_off, hm.remembered,
    ?_, ?_, ?_⟩
  · intro later between earlier bssid key key' hlog
    exact (hlog ▸ hm.orderly).single_flight
  · intro later earlier bssid answer taken hlog
    exact (hlog ▸ hm.orderly).of_append.1
  · rw [Telemetry.count_ofHistory, hm.counted]
  · exact (congrArg List.length hm.accepted).trans hm.conserved
  · intro p bssid hfree
    exact ⟨m.fetchResult_of_free p hfree, m.fetchFailure_of_free hfree⟩
  · intro m₁ p ap bssid first biased
    exact ⟨matchOne_of_refused, sight_of_refused⟩
  · intro m₁ p aps
    exact m₁.matchAll_state p aps

/-- Two access points of one extended service set are asked; the first fails and is asked again
    when its hold-off ended.  Both answer, and a late failure finds nothing open. -/
def askedAgain : List Step :=
  let first := { AccessPoint.ofNames "net" "02:00:00:00:00:01" with hessid := 7 }
  let second := { AccessPoint.ofNames "net" "02:00:00:00:00:02" with hessid := 7 }
  [(.failing none, .matchOne first), (.obliging, .matchAll [first, first, second]),
    (.obliging, .fetchFailure ⟨0x020000000001⟩),
    ({ Platform.obliging with now := 10000 }, .matchOne first),
    (.obliging, .fetchResult ⟨0x020000000002⟩ (.ofList [.domainName ["b.example"]])),
    (.obliging, .handle (.fetchResult ⟨0x020000000001⟩ (.ofList [.domainName ["a.example"]]))),
    (.obliging, .fetchFailure ⟨0x020000000001⟩)]

theorem requests_and_reports_pair_up_asked_again :
    let m := (new .default .default).run askedAgain
    let log := (new .default .default).traffic askedAgain
    m.history.filterMap Call.accepted? = [⟨0x020000000001⟩, ⟨0x020000000002⟩, ⟨0x020000000001⟩] ∧
      (∃ answer, Exchange.reported ⟨0x020000000001⟩ answer true ∈
        [.reported ⟨0x020000000001⟩ none true, .asked ⟨0x020000000002⟩ ⟨none, 0, 7, 0⟩]) ∧
      3 = log.countP Exchange.isTaken + m.requests.pending.size ∧
      log.lastAnswer? ⟨none, 0, 7, 0⟩ = some (.ofList [.domainName ["a.example"]]) := by
  intro m log
  obtain ⟨-, hflight, -, -, -, hconserved, -, -, hremembered, -⟩ :=
    requests_and_reports_pair_up .default .default askedAgain
  have hissued : m.history.filterMap Call.accepted? =
      [⟨0x020000000001⟩, ⟨0x020000000002⟩, ⟨0x020000000001⟩] := by decide
  have hcached : m.cache.get? ⟨none, 0, 7, 0⟩ =
      some { capturedAt := 0, elements := .ofList [.domainName ["a.example"]] } := by decide
  refine ⟨hissued, ?_, ?_, hremembered _ _ hcached⟩
  · apply hflight (log.take 3) _ [] ⟨0x020000000001⟩ ⟨none, 0, 7, 0⟩ ⟨none, 0, 7, 0⟩
    decide
  · exact (congrArg List.length hissued).symm.trans hconserved

end Manager

end Hotspot
