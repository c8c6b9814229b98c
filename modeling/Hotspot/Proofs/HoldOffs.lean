/-
  Hotspot/Proofs/HoldOffs.lean
  ============================
  **How long an access point is left alone.**

  A run of the request tracker is told by a log: which requests the radio accepted, when, and
  until when they made the tracker hold off; which of them were answered or failed; and which
  access points a prune forgot.  The attempts at an access point are the requests accepted since
  the start, since it last answered, or since a prune forgot it, whichever came last.

  The log decides what the tracker holds off from (`Recorded`): nothing that there is no attempt
  at, and otherwise until the latest attempt wants it, the number of attempts before it being the
  exponent up to the limit.  Each operation keeps this.  That nothing is asked before its time
  (`Timed.held_or_past`) needs no look at the tracker any more: in the log, whatever ends a
  hold-off without an answer comes after its end.
-/
import Mathlib.Algebra.Group.Nat.Defs
import Hotspot.Proofs.Completions
import Hotspot.Proofs.OrderedMap

namespace Hotspot

/-! ### Lengths -/

theorem Millis.le_after (t d : Millis) : t ≤ after t d := by
  have hlast : t.toNat ≤ latest := Nat.le_pred_of_lt t.toNat_lt
  rw [UInt64.le_iff_toNat_le, toNat_after]
  omega

/-- Past sixty-four doublings the length is at its limit, unless it is nothing at all. -/
theorem RequestSettings.toNat_holdOff (s : RequestSettings) (retries : UInt32) :
    (s.holdOff retries).toNat =
      min (s.baseHoldOff.toNat * 2 ^ retries.toNat) Millis.latest := by
  rw [holdOff, Millis.toNat_clamp, Nat.shiftLeft_eq]
  rcases Nat.le_total retries.toNat 64 with hfew | hmany
  · rw [Nat.min_eq_left hfew]
  · rw [Nat.min_eq_right hmany]
    rcases Nat.eq_zero_or_pos s.baseHoldOff.toNat with hzero | hpos
    · rw [hzero, Nat.zero_mul, Nat.zero_mul]
    · have hlatest : Millis.latest ≤ 2 ^ 64 := by decide
      have hpow : 2 ^ 64 ≤ 2 ^ retries.toNat := Nat.pow_le_pow_right (by decide) hmany
      have hfirst : 2 ^ 64 ≤ s.baseHoldOff.toNat * 2 ^ 64 := Nat.le_mul_of_pos_left _ hpos
      have hsecond : 2 ^ retries.toNat ≤ s.baseHoldOff.toNat * 2 ^ retries.toNat :=
        Nat.le_mul_of_pos_left _ hpos
      omega

/-- The length of the hold-off of a request with `n` attempts before it: the base doubled `n`
    times, but no more often than the limit. -/
def RequestSettings.holdOffLength (s : RequestSettings) (n : Nat) : Nat :=
  min (s.baseHoldOff.toNat * 2 ^ min n s.maxRetries.toNat) Millis.latest

def RequestSettings.holdOffEnd (s : RequestSettings) (now : Millis) (n : Nat) : Nat :=
  min (now.toNat + s.holdOffLength n) Millis.latest

/-! ### The log -/

inductive TrackerEvent where
  | accepted (bssid : MacAddress) (now heldUntil : Millis)
  | completed (bssid : MacAddress) (success : Bool)
  | forgotten (bssid : MacAddress) (now : Millis)
deriving DecidableEq

def TrackerEvent.time? : TrackerEvent → Option Millis
  | .accepted _ now _ => some now
  | .completed _ _ => none
  | .forgotten _ now => some now

/-- What happened so far, the latest first. -/
abbrev TrackerLog := List TrackerEvent

namespace TrackerLog

/-- The attempts at an access point, by the ends of their hold-offs, the latest first. -/
def attempts : TrackerLog → MacAddress → List Millis
  | [], _ => []
  | .accepted b _ heldUntil :: earlier, bssid =>
    if b = bssid then heldUntil :: attempts earlier bssid else attempts earlier bssid
  | .completed b success :: earlier, bssid =>
    if b = bssid ∧ success = true then [] else attempts earlier bssid
  | .forgotten b _ :: earlier, bssid => if b = bssid then [] else attempts earlier bssid

/-- Requests are accepted and access points forgotten when the last hold-off is over, and each
    request makes a hold-off as long as its number wants. -/
def Timed (s : RequestSettings) : TrackerLog → Prop
  | [] => True
  | .accepted b now heldUntil :: earlier =>
    heldUntil.toNat = s.holdOffEnd now (attempts earlier b).length ∧
    (∀ last ∈ (attempts earlier b).head?, last ≤ now) ∧ Timed s earlier
  | .completed _ _ :: earlier => Timed s earlier
  | .forgotten b now :: earlier =>
    (∀ last ∈ (attempts earlier b).head?, last ≤ now) ∧ Timed s earlier

variable {s : RequestSettings} {log : TrackerLog} {bssid : MacAddress} {now : Millis}

theorem Timed.of_append {later : TrackerLog} (h : Timed s (later ++ log)) : Timed s log := by
  induction later with
  | nil => exact h
  | cons e rest ih =>
    cases e with
    | accepted b t heldUntil => exact ih h.2.2
    | completed b success => exact ih h
    | forgotten b t => exact ih h.2

/-- **No end before its time.**  As long as an access point does not answer, a hold-off from it
    is in force, or a longer one, or it is past its end. -/
theorem Timed.held_or_past {later earlier : TrackerLog} {t heldUntil : Millis}
    (h : Timed s (later ++ .accepted bssid t heldUntil :: earlier))
    (hopen : .completed bssid true ∉ later)
    (hnow : ∀ e ∈ later, ∀ t' ∈ e.time?, t' ≤ now) :
    (∃ last ∈ (attempts (later ++ .accepted bssid t heldUntil :: earlier) bssid).head?,
      heldUntil ≤ last) ∨ heldUntil ≤ now := by
  induction later with
  | nil => exact Or.inl ⟨heldUntil, by simp [attempts], UInt64.le_refl _⟩
  | cons e rest ih =>
    have hsplit : Timed s ([e] ++ (rest ++ .accepted bssid t heldUntil :: earlier)) := h
    have hrest := hsplit.of_append
    have hbefore := ih hrest (fun hmem => hopen (List.mem_cons_of_mem _ hmem))
      fun e he => hnow e (List.mem_cons_of_mem _ he)
    -- an event that waits for the last hold-off comes after this one
    have hover : ∀ t', (∀ last ∈ (attempts (rest ++ .accepted bssid t heldUntil :: earlier)
        bssid).head?, last ≤ t') → t' ≤ now → heldUntil ≤ now := by
      intro t' hlast ht'
      rcases hbefore with ⟨last, hmem, hle⟩ | hpast
      · exact UInt64.le_trans (UInt64.le_trans hle (hlast last hmem)) ht'
      · exact hpast
    have htime := hnow e List.mem_cons_self
    rw [List.cons_append] at h ⊢
    cases e with
    | accepted b t' heldUntil' =>
      by_cases hb : b = bssid
      · subst hb
        exact Or.inr (hover t' h.2.1 (htime t' rfl))
      · simp only [attempts, if_neg hb]
        exact hbefore
    | completed b success =>
      have hkept : ¬ (b = bssid ∧ success = true) := by
        rintro ⟨rfl, rfl⟩
        exact hopen List.mem_cons_self
      simp only [attempts, if_neg hkept]
      exact hbefore
    | forgotten b t' =>
      by_cases hb : b = bssid
      · subst hb
        exact Or.inr (hover t' h.1 (htime t' rfl))
      · simp only [attempts, if_neg hb]
        exact hbefore

theorem attempts_forgotten (gone : List MacAddress) (now : Millis) (log : TrackerLog)
    (bssid : MacAddress) :
    attempts (gone.map (.forgotten · now) ++ log) bssid =
      if bssid ∈ gone then [] else attempts log bssid := by
  induction gone with
  | nil => simp
  | cons b rest ih =>
    rw [List.map_cons, List.cons_append, attempts, ih]
    by_cases hb : b = bssid
    · simp [hb]
    · simp [hb, Ne.symm hb]

theorem Timed.forgotten {gone : List MacAddress} (h : Timed s log)
    (hgone : ∀ b ∈ gone, ∀ last ∈ (attempts log b).head?, last ≤ now) :
    Timed s (gone.map (.forgotten · now) ++ log) := by
  induction gone with
  | nil => exact h
  | cons b rest ih =>
    rw [List.map_cons, List.cons_append, Timed, attempts_forgotten]
    refine ⟨?_, ih fun b' hb' => hgone b' (List.mem_cons_of_mem _ hb')⟩
    split
    · intro last hlast
      cases hlast
    · exact hgone b List.mem_cons_self

end TrackerLog

/-! ### Runs of the tracker -/

inductive TrackerOperation where
  | request (bssid : MacAddress) (key : IdentityKey) (first biased : Bool)
  | complete (bssid : MacAddress) (success : Bool)
  | prune
deriving DecidableEq

namespace RequestTracker

variable {t : RequestTracker} {s : RequestSettings} {now : Millis} {bssid bssid' : MacAddress}
  {success : Bool}

def heldUntil? (t : RequestTracker) (bssid : MacAddress) : Option Millis :=
  (t.holdOffs.get? bssid).map (·.expiresAt)

theorem isFirstAttempt_iff : t.isFirstAttempt bssid = true ↔ t.holdOffs.get? bssid = none := by
  simp [isFirstAttempt, OrderedMap.contains]

theorem mayRequest_iff : t.mayRequest now bssid = true ↔
    t.pending.contains bssid = false ∧ ∀ u ∈ t.heldUntil? bssid, u ≤ now := by
  unfold mayRequest isHeldOff heldUntil?
  cases t.holdOffs.get? bssid with
  | none => simp
  | some held => simp

end RequestTracker

namespace Manager

def track (m : Manager) (p : Platform) : TrackerOperation → Manager
  | .request bssid key first biased => (m.requestFetch p bssid key first biased).2
  | .complete bssid success => { m with requests := (m.requests.complete bssid success).2 }
  | .prune => { m with requests := (m.requests.prune m.settings.requests p.now).2 }

def pruned (m : Manager) (p : Platform) : List MacAddress :=
  m.requests.holdOffs.keys.filter fun b => !(m.track p .prune).requests.holdOffs.contains b

/-- What is to be told of an operation on the request tracker.  A completion without an open
    request is not told. -/
def tracked (m : Manager) (p : Platform) : TrackerOperation → TrackerLog
  | .request bssid key first biased =>
    let (accepted, after) := m.requestFetch p bssid key first biased
    if accepted then (after.requests.heldUntil? bssid).toList.map (.accepted bssid p.now) else []
  | .complete bssid success =>
    if m.requests.pending.contains bssid then [.completed bssid success] else []
  | .prune => (m.pruned p).map (.forgotten · p.now)

/-- A step of a run of the tracker: what is done, when, and what the radio says to it. -/
abbrev TrackerStep := Platform × TrackerOperation

def trackAll (m : Manager) (steps : List TrackerStep) : Manager :=
  steps.foldl (fun m s => m.track s.1 s.2) m

def trackerLog : Manager → List TrackerStep → TrackerLog
  | _, [] => []
  | m, s :: rest => (m.track s.1 s.2).trackerLog rest ++ m.tracked s.1 s.2

/-! ### Single operations -/

variable {m : Manager} {p : Platform} {bssid bssid' : MacAddress} {key : IdentityKey}
  {first biased success : Bool}

theorem settings_requestFetch : (m.requestFetch p bssid key first biased).2.settings =
    m.settings := by
  unfold requestFetch
  split
  · dsimp only
    split <;> rfl
  · rfl

theorem settings_track (m : Manager) (p : Platform) (op : TrackerOperation) :
    (m.track p op).settings = m.settings := by
  cases op with
  | request bssid key first biased => exact settings_requestFetch
  | complete bssid success => rfl
  | prune => rfl

theorem settings_trackAll (m : Manager) (steps : List TrackerStep) :
    (m.trackAll steps).settings = m.settings := by
  induction steps generalizing m with
  | nil => rfl
  | cons s rest ih => exact (ih _).trans (settings_track m s.1 s.2)

theorem requestFetch_fst_iff : (m.requestFetch p bssid key first biased).1 = true ↔
    m.requests.mayRequest p.now bssid = true ∧
      p.acceptsFetch m.history bssid first biased = true := by
  unfold requestFetch
  by_cases hmay : m.requests.mayRequest p.now bssid = true
  · rw [if_pos hmay]
    by_cases haccepts : p.acceptsFetch m.history bssid first biased = true
    · simp [hmay, haccepts]
    · simp [haccepts]
  · simp [hmay]

theorem requests_requestFetch : (m.requestFetch p bssid key first biased).2.requests =
    if (m.requestFetch p bssid key first biased).1 = true then
      m.requests.issue m.settings.requests p.now bssid key
    else m.requests := by
  unfold requestFetch
  split
  · dsimp only
    split
    · rfl
    · rfl
  · rfl

def nextEnd (m : Manager) (p : Platform) (bssid : MacAddress) : Millis :=
  Millis.after p.now (m.settings.requests.holdOff
    (RequestTracker.nextRetries m.settings.requests (m.requests.holdOffs.get? bssid)))

theorem get?_holdOffs_of_accepted (h : (m.requestFetch p bssid key first biased).1 = true)
    (bssid' : MacAddress) :
    (m.requestFetch p bssid key first biased).2.requests.holdOffs.get? bssid' =
      if bssid' = bssid then some {
        retries := RequestTracker.nextRetries m.settings.requests (m.requests.holdOffs.get? bssid)
        expiresAt := m.nextEnd p bssid }
      else m.requests.holdOffs.get? bssid' := by
  rw [requests_requestFetch, if_pos h]
  exact OrderedMap.get?_insert ..

theorem heldUntil?_of_accepted (h : (m.requestFetch p bssid key first biased).1 = true)
    (bssid' : MacAddress) :
    (m.requestFetch p bssid key first biased).2.requests.heldUntil? bssid' =
      if bssid' = bssid then some (m.nextEnd p bssid) else m.requests.heldUntil? bssid' := by
  rw [RequestTracker.heldUntil?, get?_holdOffs_of_accepted h]
  split <;> rfl

/-- **An accepted request is told with the hold-off that it made.** -/
theorem tracked_of_accepted (h : (m.requestFetch p bssid key first biased).1 = true) :
    m.tracked p (.request bssid key first biased) =
      [.accepted bssid p.now (m.nextEnd p bssid)] := by
  simp only [tracked, h, if_true, heldUntil?_of_accepted h bssid]
  rfl

theorem tracked_of_refused (h : ¬ (m.requestFetch p bssid key first biased).1 = true) :
    m.tracked p (.request bssid key first biased) = [] := by
  simp only [tracked, h, if_false, Bool.false_eq_true]

theorem tracked_complete : m.tracked p (.complete bssid success) =
    if m.requests.pending.contains bssid = true then [.completed bssid success] else [] := rfl

theorem get?_track_complete (m : Manager) (p : Platform) (bssid' : MacAddress) :
    (m.track p (.complete bssid success)).requests.holdOffs.get? bssid' =
      if bssid' = bssid ∧ success = true ∧ m.requests.pending.contains bssid = true then none
      else m.requests.holdOffs.get? bssid' :=
  get?_holdOffs_complete m.requests success

theorem get?_track_prune (m : Manager) (p : Platform) (bssid : MacAddress) :
    (m.track p .prune).requests.holdOffs.get? bssid =
      (m.requests.holdOffs.get? bssid).filter fun held =>
        m.requests.pending.contains bssid ||
          p.now < Millis.after held.expiresAt m.settings.requests.grace :=
  OrderedMap.get?_filter ..

/-- An access point has no open request, and the grace after its hold-off is over. -/
def Lapsed (m : Manager) (now : Millis) (bssid : MacAddress) : Prop :=
  m.requests.pending.contains bssid = false ∧
    ∀ u ∈ m.requests.heldUntil? bssid, Millis.after u m.settings.requests.grace ≤ now

theorem mem_pruned_iff : bssid ∈ m.pruned p ↔
    m.requests.holdOffs.contains bssid = true ∧ m.Lapsed p.now bssid := by
  rw [pruned, List.mem_filter, OrderedMap.mem_keys_iff, OrderedMap.contains, OrderedMap.contains,
    get?_track_prune, Lapsed, RequestTracker.heldUntil?]
  cases m.requests.holdOffs.get? bssid with
  | none => simp
  | some held => simp

theorem get?_track_prune_of_mem (h : bssid ∈ m.pruned p) :
    (m.track p .prune).requests.holdOffs.get? bssid = none := by
  simpa [pruned, OrderedMap.contains] using (List.mem_filter.1 h).2

theorem get?_track_prune_of_not_mem (h : bssid ∉ m.pruned p) :
    (m.track p .prune).requests.holdOffs.get? bssid = m.requests.holdOffs.get? bssid := by
  rw [mem_pruned_iff, OrderedMap.contains, Lapsed, RequestTracker.heldUntil?] at h
  rw [get?_track_prune]
  cases hget : m.requests.holdOffs.get? bssid with
  | none => rfl
  | some held =>
    rw [Option.filter_some, if_pos]
    apply Decidable.byContradiction
    intro hdropped
    apply h
    simpa [hget] using hdropped

/-- What is told of an operation happens at its time. -/
theorem time?_of_mem_tracked {op : TrackerOperation} {e : TrackerEvent} {t : Millis}
    (he : e ∈ m.tracked p op) (ht : t ∈ e.time?) : t = p.now := by
  cases op with
  | request bssid key first biased =>
    by_cases h : (m.requestFetch p bssid key first biased).1 = true
    · rw [tracked_of_accepted h, List.mem_singleton] at he
      subst he
      exact (Option.some.inj ht).symm
    · rw [tracked_of_refused h] at he
      cases he
  | complete bssid success =>
    rw [tracked_complete] at he
    split at he
    · rw [List.mem_singleton] at he
      subst he
      cases ht
    · cases he
  | prune =>
    obtain ⟨b, -, rfl⟩ := List.mem_map.1 he
    exact (Option.some.inj ht).symm

theorem time?_of_mem_trackerLog {steps : List TrackerStep} {e : TrackerEvent} {t : Millis}
    (he : e ∈ m.trackerLog steps) (ht : t ∈ e.time?) : ∃ s ∈ steps, t = s.1.now := by
  induction steps generalizing m with
  | nil => cases he
  | cons s rest ih =>
    rcases List.mem_append.1 he with he | he
    · obtain ⟨s', hs', heq⟩ := ih he
      exact ⟨s', List.mem_cons_of_mem _ hs', heq⟩
    · exact ⟨s, List.mem_cons_self, time?_of_mem_tracked he ht⟩

/-! ### Log and tracker -/

def HeldFor (s : RequestSettings) : List Millis → Option HoldOff → Prop
  | [], held => held = none
  | heldUntil :: before, held => ∃ retries : UInt32,
    retries.toNat = min before.length s.maxRetries.toNat ∧
      held = some { retries, expiresAt := heldUntil }

theorem HeldFor.expiresAt {s : RequestSettings} {attempts : List Millis} {held : Option HoldOff}
    (h : HeldFor s attempts held) : held.map (·.expiresAt) = attempts.head? := by
  cases attempts with
  | nil =>
    obtain rfl : held = none := h
    rfl
  | cons heldUntil before =>
    obtain ⟨retries, -, rfl⟩ := h
    rfl

/-- The exponent grows with the attempts, up to the limit. -/
theorem HeldFor.toNat_nextRetries {s : RequestSettings} {attempts : List Millis}
    {held : Option HoldOff} (h : HeldFor s attempts held) :
    (RequestTracker.nextRetries s held).toNat = min attempts.length s.maxRetries.toNat := by
  cases attempts with
  | nil =>
    obtain rfl : held = none := h
    simp [RequestTracker.nextRetries]
  | cons heldUntil before =>
    obtain ⟨retries, hretries, rfl⟩ := h
    have hbound : s.maxRetries.toNat < 2 ^ 32 := s.maxRetries.toNat_lt
    simp only [RequestTracker.nextRetries, List.length_cons]
    split
    · rename_i hlt
      rw [UInt32.lt_iff_toNat_lt] at hlt
      have hone : (1 : UInt32).toNat = 1 := rfl
      rw [UInt32.toNat_add]
      omega
    · rename_i hlt
      rw [UInt32.lt_iff_toNat_lt] at hlt
      omega

/-- The log tells what the tracker holds off from, and until when. -/
structure Recorded (log : TrackerLog) (m : Manager) : Prop where
  timed : log.Timed m.settings.requests
  held : ∀ bssid, HeldFor m.settings.requests (log.attempts bssid)
    (m.requests.holdOffs.get? bssid)

theorem recorded_new (settings : Settings) (matchers : Matchers) :
    Recorded [] (new settings matchers) :=
  ⟨trivial, fun _ => rfl⟩

namespace Recorded

variable {log : TrackerLog}

theorem heldUntil? (h : Recorded log m) (bssid : MacAddress) :
    m.requests.heldUntil? bssid = (log.attempts bssid).head? :=
  (h.held bssid).expiresAt

theorem isFirstAttempt_iff (h : Recorded log m) :
    m.requests.isFirstAttempt bssid = true ↔ log.attempts bssid = [] := by
  rw [RequestTracker.isFirstAttempt_iff, ← List.head?_eq_none_iff, ← h.heldUntil?,
    RequestTracker.heldUntil?, Option.map_eq_none_iff]

/-- **When a request is accepted.** -/
theorem requestFetch_iff (h : Recorded log m) :
    (m.requestFetch p bssid key first biased).1 = true ↔
      m.requests.pending.contains bssid = false ∧
      p.acceptsFetch m.history bssid first biased = true ∧
      ∀ last ∈ (log.attempts bssid).head?, last ≤ p.now := by
  rw [requestFetch_fst_iff, RequestTracker.mayRequest_iff, h.heldUntil?, and_assoc,
    and_comm (b := _ = true)]

theorem toNat_nextEnd (h : Recorded log m) (p : Platform) (bssid : MacAddress) :
    (m.nextEnd p bssid).toNat =
      m.settings.requests.holdOffEnd p.now (log.attempts bssid).length := by
  rw [nextEnd, Millis.toNat_after, RequestSettings.toNat_holdOff,
    (h.held bssid).toNat_nextRetries]
  rfl

theorem request (h : Recorded log m) :
    Recorded (m.tracked p (.request bssid key first biased) ++ log)
      (m.track p (.request bssid key first biased)) := by
  by_cases haccepted : (m.requestFetch p bssid key first biased).1 = true
  · have hlast := ((h.requestFetch_iff).1 haccepted).2.2
    have hsettings := settings_track m p (.request bssid key first biased)
    rw [tracked_of_accepted haccepted, List.singleton_append]
    refine ⟨?_, fun b => ?_⟩
    · rw [hsettings]
      exact ⟨h.toNat_nextEnd p bssid, hlast, h.timed⟩
    · rw [hsettings, track, get?_holdOffs_of_accepted haccepted, TrackerLog.attempts]
      by_cases hb : b = bssid
      · rw [if_pos hb, if_pos hb.symm, hb]
        exact ⟨_, (h.held bssid).toNat_nextRetries, rfl⟩
      · rw [if_neg hb, if_neg (Ne.symm hb)]
        exact h.held b
  · have hrequests : (m.track p (.request bssid key first biased)).requests = m.requests := by
      rw [track, requests_requestFetch, if_neg haccepted]
    rw [tracked_of_refused haccepted, List.nil_append]
    refine ⟨?_, fun b => ?_⟩
    · rw [settings_track]
      exact h.timed
    · rw [settings_track, hrequests]
      exact h.held b

theorem complete (h : Recorded log m) :
    Recorded (m.tracked p (.complete bssid success) ++ log)
      (m.track p (.complete bssid success)) := by
  rw [tracked_complete]
  by_cases hopen : m.requests.pending.contains bssid = true
  · rw [if_pos hopen, List.singleton_append]
    refine ⟨h.timed, fun b => ?_⟩
    rw [get?_track_complete, TrackerLog.attempts]
    by_cases hb : b = bssid ∧ success = true
    · rw [if_pos ⟨hb.1.symm, hb.2⟩, if_pos ⟨hb.1, hb.2, hopen⟩]
      rfl
    · rw [if_neg fun hc => hb ⟨hc.1.symm, hc.2⟩, if_neg fun hc => hb ⟨hc.1, hc.2.1⟩]
      exact h.held b
  · rw [if_neg hopen, List.nil_append]
    refine ⟨h.timed, fun b => ?_⟩
    rw [get?_track_complete, if_neg fun hc => hopen hc.2.2]
    exact h.held b

theorem prune (h : Recorded log m) :
    Recorded (m.tracked p .prune ++ log) (m.track p .prune) := by
  refine ⟨h.timed.forgotten fun b hb last hlast => ?_, fun b => ?_⟩
  · obtain ⟨-, -, hpast⟩ := mem_pruned_iff.1 hb
    rw [← h.heldUntil?] at hlast
    exact UInt64.le_trans (Millis.le_after _ _) (hpast last hlast)
  · have hattempts : TrackerLog.attempts (m.tracked p .prune ++ log) b =
        if b ∈ m.pruned p then [] else log.attempts b := TrackerLog.attempts_forgotten ..
    rw [hattempts]
    by_cases hb : b ∈ m.pruned p
    · rw [if_pos hb, get?_track_prune_of_mem hb]
      rfl
    · rw [if_neg hb, get?_track_prune_of_not_mem hb]
      exact h.held b

theorem track (h : Recorded log m) (op : TrackerOperation) :
    Recorded (m.tracked p op ++ log) (m.track p op) := by
  cases op with
  | request bssid key first biased => exact h.request
  | complete bssid success => exact h.complete
  | prune => exact h.prune

theorem trackAll (h : Recorded log m) (steps : List TrackerStep) :
    Recorded (m.trackerLog steps ++ log) (m.trackAll steps) := by
  induction steps generalizing log m with
  | nil => exact h
  | cons s rest ih =>
    rw [trackerLog, List.append_assoc]
    exact ih (h.track s.2)

/-- Nothing is asked before the end of a hold-off, unless an answer came in between. -/
theorem refused_before_end (h : Recorded log m) {later earlier : TrackerLog}
    {now heldUntil : Millis} (hlog : log = later ++ .accepted bssid now heldUntil :: earlier)
    (hopen : .completed bssid true ∉ later) (hnow : ∀ e ∈ log, ∀ t ∈ e.time?, t ≤ p.now)
    (hearly : p.now < heldUntil) : (m.requestFetch p bssid key first biased).1 = false := by
  have htimed := h.timed
  rw [hlog] at htimed hnow
  rw [← Bool.not_eq_true, h.requestFetch_iff, hlog]
  rintro ⟨-, -, hlast⟩
  rcases htimed.held_or_past hopen fun e he => hnow e (List.mem_append_left _ he) with
    ⟨last, hmem, hle⟩ | hpast
  · exact UInt64.not_le.2 hearly (UInt64.le_trans hle (hlast last hmem))
  · exact UInt64.not_le.2 hearly hpast

end Recorded

/-- **Hold-offs double.**  In every run of the tracker:

    * an accepted request is told with the end of the hold-off that it then makes, and this is
      the time and the base, doubled once for each attempt before it up to the limit, without
      overflow;
    * as long as the clock does not go back, no other request to the access point is accepted
      before that end unless an answer comes in between;
    * a request is accepted just when none is open, the radio takes it, and the hold-off of the
      latest attempt is over;
    * an attempt is the first one just when there was none before. -/
theorem hold_offs_double (settings : Settings) (matchers : Matchers) (steps : List TrackerStep) :
    let m := (new settings matchers).trackAll steps
    let log := (new settings matchers).trackerLog steps
    (∀ p bssid key first biased,
      let asked := m.requestFetch p bssid key first biased
      (asked.1 = true → ∃ heldUntil, asked.2.requests.heldUntil? bssid = some heldUntil ∧
        m.tracked p (.request bssid key first biased) = [.accepted bssid p.now heldUntil] ∧
        heldUntil.toNat = settings.requests.holdOffEnd p.now (log.attempts bssid).length) ∧
      (asked.1 = false → m.tracked p (.request bssid key first biased) = [])) ∧
    (∀ later earlier bssid now heldUntil, log = later ++ .accepted bssid now heldUntil :: earlier →
      .completed bssid true ∉ later → ∀ p key first biased, (∀ s ∈ steps, s.1.now ≤ p.now) →
      p.now < heldUntil → (m.requestFetch p bssid key first biased).1 = false) ∧
    (∀ p bssid key first biased, (m.requestFetch p bssid key first biased).1 = true ↔
      m.requests.pending.contains bssid = false ∧
      p.acceptsFetch m.history bssid first biased = true ∧
      ∀ last ∈ (log.attempts bssid).head?, last ≤ p.now) ∧
    ∀ bssid, m.requests.isFirstAttempt bssid = true ↔ log.attempts bssid = [] := by
  intro m log
  have hm : Recorded log m := by
    have hrun := (recorded_new settings matchers).trackAll steps
    rwa [List.append_nil] at hrun
  have hsettings : m.settings = settings := settings_trackAll _ steps
  refine ⟨?_, ?_, fun p bssid key first biased => hm.requestFetch_iff,
    fun bssid => hm.isFirstAttempt_iff⟩
  · intro p bssid key first biased
    refine ⟨fun haccepted => ⟨m.nextEnd p bssid, ?_, tracked_of_accepted haccepted, ?_⟩,
      fun hrefused => ?_⟩
    · rw [heldUntil?_of_accepted haccepted, if_pos rfl]
    · rw [hm.toNat_nextEnd, hsettings]
    · exact tracked_of_refused (Bool.not_eq_true _ ▸ hrefused)
  · intro later earlier bssid now heldUntil hlog hopen p key first biased hclock hearly
    refine hm.refused_before_end hlog hopen (fun e he t ht => ?_) hearly
    obtain ⟨s, hs, rfl⟩ := time?_of_mem_trackerLog he ht
    exact hclock s hs

def doublingOnce : Settings :=
  { Settings.default with requests := { baseHoldOff := 10, maxRetries := 1 } }

def askedThrice : List TrackerStep :=
  let bssid : MacAddress := ⟨1⟩
  let key : IdentityKey := ⟨none, 1, 0, 0⟩
  [(.obligingAt 0, .request bssid key true false), (.obligingAt 1, .complete bssid false),
    (.obligingAt 9, .request bssid key false false),
    (.obligingAt 10, .request bssid key false false), (.obligingAt 11, .prune),
    (.obligingAt 12, .complete bssid false)]

theorem hold_offs_double_asked_thrice :
    let m := (new doublingOnce .default).trackAll askedThrice
    let log := (new doublingOnce .default).trackerLog askedThrice
    let bssid : MacAddress := ⟨1⟩
    let key : IdentityKey := ⟨none, 1, 0, 0⟩
    log = [.completed bssid false, .accepted bssid 10 30, .completed bssid false,
      .accepted bssid 0 10] ∧
    (m.requestFetch (.obligingAt 29) bssid key false false).1 = false ∧
    (m.requestFetch (.obligingAt 30) bssid key false false).1 = true ∧
    (∃ heldUntil : Millis, (m.requestFetch (.obligingAt 30) bssid key false
      false).2.requests.heldUntil? bssid = some heldUntil ∧ heldUntil.toNat = 50) ∧
    m.requests.isFirstAttempt bssid = false := by
  intro m log bssid key
  have hlog : log = [.completed bssid false, .accepted bssid 10 30, .completed bssid false,
      .accepted bssid 0 10] := by decide
  obtain ⟨hends, hearly, haccepted, hfirst⟩ := hold_offs_double doublingOnce .default askedThrice
  have hattempts : log.attempts bssid = [30, 10] := by
    rw [hlog]
    decide
  have hlater : (m.requestFetch (.obligingAt 30) bssid key false false).1 = true := by
    refine (haccepted ..).2 ⟨by decide, rfl, fun last hlast => ?_⟩
    rw [hattempts] at hlast
    cases hlast
    decide
  refine ⟨hlog, ?_, hlater, ?_, ?_⟩
  · apply hearly [.completed bssid false] [.completed bssid false, .accepted bssid 0 10] bssid 10 30
      hlog (by decide)
    · decide
    · decide
  · obtain ⟨heldUntil, hheld, -, hend⟩ := (hends _ bssid key false false).1 hlater
    refine ⟨heldUntil, hheld, hend.trans ?_⟩
    decide
  · rw [← Bool.not_eq_true, hfirst]
    decide

end Manager

end Hotspot
