/-
  Hotspot/Proofs/Completions.lean
  ===============================
  **What one report does.**

  A report either completes a request to an access point or is about the profiles, and the two
  kinds have nothing to do with each other.  What a completion does is one equation
  (`handle_of_completes`): with a request open it closes the request, and an answer is remembered
  under the key of the request; otherwise an answer is counted as dropped.  The equations after
  it say the same for a single request, a single hold-off and a single key of the cache.  A
  report about the profiles leaves all of these alone (`handle_of_profiles`).
-/
import Hotspot.Proofs.Frames

namespace Hotspot

namespace Event

/-- The access point that a report completes the request to, if it is such a report. -/
def completes? : Event → Option MacAddress
  | .fetchResult bssid _ => some bssid
  | .fetchFailure bssid => some bssid
  | .authorizationChanged _ => none
  | .networkConnected _ => none

def answer? : Event → Option Anqp.Elements
  | .fetchResult _ es => some es
  | _ => none

/-- Whether a report is about the profiles: an authorization or a connection changed. -/
def isOfProfiles (e : Event) : Bool := e.completes?.isNone

end Event

def Call.isFetch : Call → Bool
  | .issueFetch .. => true
  | _ => false

namespace Manager

variable {m : Manager} {p : Platform} {e : Event} {bssid bssid' : MacAddress}

def openKey? (m : Manager) (bssid : MacAddress) : Option IdentityKey :=
  (m.requests.pending.get? bssid).map (·.key)

/-! ### Completions -/

/-- **What a completion does.** -/
theorem handle_of_completes (h : e.completes? = some bssid) :
    m.handle p e =
      match m.requests.pending.get? bssid with
      | none => if e.answer?.isSome then m.increment .responseDropped else m
      | some request => { m with
          requests := (m.requests.complete bssid e.answer?.isSome).2
          cache := e.answer?.elim m.cache (m.cache.store p.now request.key) } := by
  cases e with
  | fetchResult b es =>
    obtain rfl := Option.some.inj h
    simp only [handle, fetchResult, RequestTracker.complete]
    cases m.requests.pending.get? b <;> rfl
  | fetchFailure b =>
    obtain rfl := Option.some.inj h
    simp only [handle, fetchFailure, RequestTracker.complete]
    cases m.requests.pending.get? b <;> rfl
  | authorizationChanged package => cases h
  | networkConnected fqdn => cases h

theorem get?_pending_complete (t : RequestTracker) (success : Bool) :
    (t.complete bssid success).2.pending.get? bssid' =
      if bssid' = bssid then none else t.pending.get? bssid' := by
  unfold RequestTracker.complete
  cases hopen : t.pending.get? bssid with
  | none =>
    by_cases hb : bssid' = bssid
    · rw [if_pos hb, hb, hopen]
    · rw [if_neg hb]
  | some request => exact OrderedMap.get?_erase ..

theorem get?_holdOffs_complete (t : RequestTracker) (success : Bool) :
    (t.complete bssid success).2.holdOffs.get? bssid' =
      if bssid' = bssid ∧ success = true ∧ (t.pending.get? bssid).isSome = true then none
      else t.holdOffs.get? bssid' := by
  unfold RequestTracker.complete
  cases hopen : t.pending.get? bssid with
  | none => simp
  | some request =>
    cases success with
    | false => simp
    | true => simp [OrderedMap.get?_erase]

theorem requests_of_completes (h : e.completes? = some bssid) :
    (m.handle p e).requests = (m.requests.complete bssid e.answer?.isSome).2 := by
  rw [handle_of_completes h]
  cases hopen : m.requests.pending.get? bssid with
  | none =>
    have hsame : (m.requests.complete bssid e.answer?.isSome).2 = m.requests := by
      simp only [RequestTracker.complete, hopen]
    rw [hsame]
    dsimp only
    split <;> rfl
  | some request => rfl

/-- After a completion the access point has no open request; others keep theirs. -/
theorem get?_pending_handle (h : e.completes? = some bssid) (bssid' : MacAddress) :
    (m.handle p e).requests.pending.get? bssid' =
      if bssid' = bssid then none else m.requests.pending.get? bssid' := by
  rw [requests_of_completes h, get?_pending_complete]

/-- A completion of an open request forgets the hold-off if it is an answer. -/
theorem get?_holdOffs_handle (h : e.completes? = some bssid) (bssid' : MacAddress) :
    (m.handle p e).requests.holdOffs.get? bssid' =
      if bssid' = bssid ∧ e.answer?.isSome = true ∧
          (m.requests.pending.get? bssid).isSome = true then none
      else m.requests.holdOffs.get? bssid' := by
  rw [requests_of_completes h, get?_holdOffs_complete]

/-- An answer to an open request is remembered under the key of the request. -/
theorem get?_cache_handle (h : e.completes? = some bssid) (key : IdentityKey) :
    (m.handle p e).cache.get? key =
      if m.openKey? bssid = some key then
        (e.answer?.map fun es => { capturedAt := p.now, elements := es }).or (m.cache.get? key)
      else m.cache.get? key := by
  have hcache : (m.handle p e).cache =
      match m.requests.pending.get? bssid with
      | none => m.cache
      | some request => e.answer?.elim m.cache (m.cache.store p.now request.key) := by
    rw [handle_of_completes h]
    cases m.requests.pending.get? bssid with
    | none =>
      dsimp only
      split <;> rfl
    | some request => rfl
  rw [hcache]
  unfold openKey?
  cases m.requests.pending.get? bssid with
  | none => simp
  | some request =>
    cases e.answer? with
    | none => simp
    | some es =>
      have hstore : (m.cache.store p.now request.key es).get? key =
          if key = request.key then some { capturedAt := p.now, elements := es }
          else m.cache.get? key := OrderedMap.get?_insert ..
      simp [hstore, eq_comm (a := key)]

theorem openKey?_handle (h : e.completes? = some bssid) (bssid' : MacAddress) :
    (m.handle p e).openKey? bssid' = if bssid' = bssid then none else m.openKey? bssid' := by
  unfold openKey?
  rw [get?_pending_handle h]
  split <;> rfl

/-- A completion counts a dropped answer or makes no call. -/
theorem history_of_completes (h : e.completes? = some bssid) :
    (m.handle p e).history =
      if e.answer?.isSome = true ∧ m.openKey? bssid = none then
        .increment .responseDropped :: m.history
      else m.history := by
  rw [handle_of_completes h]
  unfold openKey?
  cases m.requests.pending.get? bssid with
  | none => cases e.answer? <;> rfl
  | some request => simp

/-- A completion has no bearing on the profiles. -/
theorem profiles_of_completes (h : e.completes? = some bssid) :
    (m.handle p e).registry = m.registry ∧ (m.handle p e).watches = m.watches := by
  rw [handle_of_completes h]
  cases m.requests.pending.get? bssid with
  | none =>
    dsimp only
    split <;> exact ⟨rfl, rfl⟩
  | some request => exact ⟨rfl, rfl⟩

/-! ### Reports about the profiles -/

/-- **What does not depend on the profiles, reports about them leave alone.** -/
theorem Unmoved.handle {I : Manager → Prop} (hI : Unmoved I) (h : e.isOfProfiles = true)
    (hm : I m) : I (m.handle p e) := by
  cases e with
  | fetchResult b es => cases h
  | fetchFailure b => cases h
  | authorizationChanged package => exact hI.authorizationChanged package hm
  | networkConnected fqdn => exact hI.networkConnected fqdn hm

theorem unmoved_traffic (requests : RequestTracker) (cache : MetadataCache) :
    Unmoved fun m => m.requests = requests ∧ m.cache = cache where
  registry _ _ hm := hm
  call _ _ _ hm := hm
  stop m package hm := by
    unfold stopWatching
    split <;> exact hm

theorem handle_of_profiles (h : e.isOfProfiles = true) :
    (m.handle p e).requests = m.requests ∧ (m.handle p e).cache = m.cache :=
  (unmoved_traffic m.requests m.cache).handle h ⟨rfl, rfl⟩

/-! ### Every report -/

/-- **No report asks an access point for anything.** -/
theorem handle_asks_nothing (m : Manager) (p : Platform) (e : Event) :
    ∃ calls, (m.handle p e).history = calls ++ m.history ∧ ∀ c ∈ calls, c.isFetch = false := by
  cases hkind : e.completes? with
  | none =>
    have hprofiles : e.isOfProfiles = true := by rw [Event.isOfProfiles, hkind]; rfl
    obtain ⟨calls, hcalls, hupkeep⟩ :=
      (unmoved_calls m).handle (p := p) hprofiles ⟨[], rfl, fun _ h => nomatch h⟩
    refine ⟨calls, hcalls, fun c hc => ?_⟩
    have hc' := hupkeep c hc
    cases c <;> first | rfl | cases hc'
  | some bssid =>
    rw [history_of_completes hkind]
    split
    · refine ⟨[.increment .responseDropped], rfl, fun c hc => ?_⟩
      rw [List.mem_singleton.1 hc]
      rfl
    · exact ⟨[], rfl, fun _ h => nomatch h⟩

end Manager

end Hotspot
