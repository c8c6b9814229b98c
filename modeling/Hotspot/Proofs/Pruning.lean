/-
  Hotspot/Proofs/Pruning.lean
  ===========================
  **Forgetting hold-offs that nobody asks about.**

  A prune drops the hold-offs of access points without an open request that ended longer ago than
  the longest hold-off, and nothing else.  So the tracker does not remember every access point it
  ever met, and yet nobody can tell that it forgets: a run in which each access point is asked
  again within the grace, if at all (`Prompt`), comes to the same with prunes anywhere in it.

  The run is compared with the one without prunes.  `Abreast` says how the two trackers are
  related meanwhile: they have the same open requests and the same hold-offs, except that the one
  may have forgotten a hold-off whose grace is over.  Time does not go back, so a prompt request
  never meets such a hold-off, and each operation keeps the two abreast.
-/
import Hotspot.Proofs.Counting
import Hotspot.Proofs.HoldOffs

namespace Hotspot

/-! ### What is forgotten -/

theorem RequestSettings.toNat_grace (s : RequestSettings) :
    s.grace.toNat = s.holdOffLength s.maxRetries.toNat := by
  rw [grace, toNat_holdOff, holdOffLength, Nat.min_self]

/-- **The grace is the longest hold-off.** -/
theorem RequestSettings.holdOffLength_le_grace (s : RequestSettings) (n : Nat) :
    s.holdOffLength n ≤ s.grace.toNat := by
  have hpow : 2 ^ min n s.maxRetries.toNat ≤ 2 ^ s.maxRetries.toNat :=
    Nat.pow_le_pow_right (by decide) (Nat.min_le_right _ _)
  have hlength := Nat.mul_le_mul_left s.baseHoldOff.toNat hpow
  rw [toNat_grace, holdOffLength, holdOffLength, Nat.min_self]
  omega

namespace TrackerLog

/-- The end of the hold-off of the latest request to an access point that was accepted, unless an
    answer to it came. -/
def unanswered? : TrackerLog → MacAddress → Option Millis
  | [], _ => none
  | .accepted b _ heldUntil :: earlier, bssid =>
    if b = bssid then some heldUntil else unanswered? earlier bssid
  | .completed b success :: earlier, bssid =>
    if b = bssid ∧ success = true then none else unanswered? earlier bssid
  | .forgotten _ _ :: earlier, bssid => unanswered? earlier bssid

theorem unanswered?_forgotten (gone : List MacAddress) (now : Millis) (log : TrackerLog)
    (bssid : MacAddress) :
    unanswered? (gone.map (.forgotten · now) ++ log) bssid = unanswered? log bssid := by
  induction gone with
  | nil => rfl
  | cons b rest ih => exact ih

end TrackerLog

/-- What a request comes to: whether it is accepted, whether it was the first attempt by then, and
    the end of the hold-off that it makes. -/
structure RequestOutcome where
  accepted : Bool
  isFirstAttempt : Bool
  heldUntil? : Option Millis
deriving DecidableEq

namespace Manager

variable {m : Manager} {p : Platform} {bssid : MacAddress} {key : IdentityKey}
  {first biased success : Bool}

def outcome (m : Manager) (p : Platform) : TrackerOperation → List RequestOutcome
  | .request bssid key first biased =>
    let (accepted, after) := m.requestFetch p bssid key first biased
    [{ accepted, isFirstAttempt := m.requests.isFirstAttempt bssid
       heldUntil? := if accepted then after.requests.heldUntil? bssid else none }]
  | _ => []

def outcomes : Manager → List TrackerStep → List RequestOutcome
  | _, [] => []
  | m, s :: rest => m.outcome s.1 s.2 ++ (m.track s.1 s.2).outcomes rest

theorem outcome_of_accepted (h : (m.requestFetch p bssid key first biased).1 = true) :
    m.outcome p (.request bssid key first biased) =
      [⟨true, m.requests.isFirstAttempt bssid, some (m.nextEnd p bssid)⟩] := by
  simp only [outcome, h, if_true, heldUntil?_of_accepted h]

theorem outcome_of_refused (h : ¬ (m.requestFetch p bssid key first biased).1 = true) :
    m.outcome p (.request bssid key first biased) =
      [⟨false, m.requests.isFirstAttempt bssid, none⟩] := by
  rw [Bool.not_eq_true] at h
  simp only [outcome, h, if_false, Bool.false_eq_true]

/-- A request, after one to the same access point that was accepted and not answered, comes while
    that one is open or before the grace after its hold-off is over. -/
def IsPrompt (m : Manager) (log : TrackerLog) (p : Platform) : TrackerOperation → Prop
  | .request bssid _ _ _ => ∀ heldUntil ∈ log.unanswered? bssid,
    m.requests.pending.contains bssid = true ∨
      p.now < Millis.after heldUntil m.settings.requests.grace
  | _ => True

/-- Every request of a run is prompt, after what the log tells. -/
def Prompt : Manager → TrackerLog → List TrackerStep → Prop
  | _, _, [] => True
  | m, log, s :: rest =>
    m.IsPrompt log s.1 s.2 ∧ Prompt (m.track s.1 s.2) (m.tracked s.1 s.2 ++ log) rest

instance (m : Manager) (log : TrackerLog) (p : Platform) (op : TrackerOperation) :
    Decidable (m.IsPrompt log p op) :=
  match op with
  | .request bssid _ _ _ =>
    decidable_of_iff ((log.unanswered? bssid).all fun heldUntil =>
        m.requests.pending.contains bssid ||
          p.now < Millis.after heldUntil m.settings.requests.grace)
      (by simp [IsPrompt, Option.all_eq_true])
  | .complete _ _ => .isTrue trivial
  | .prune => .isTrue trivial

instance decidablePrompt : (m : Manager) → (log : TrackerLog) → (steps : List TrackerStep) →
    Decidable (m.Prompt log steps)
  | _, _, [] => .isTrue trivial
  | m, log, s :: rest =>
    have := decidablePrompt (m.track s.1 s.2) (m.tracked s.1 s.2 ++ log) rest
    inferInstanceAs (Decidable (m.IsPrompt log s.1 s.2 ∧ _))

def unpruned (steps : List TrackerStep) : List TrackerStep :=
  steps.filter fun s => s.2 ≠ .prune

/-! ### Two trackers abreast -/

/-- `m` is `m₀`, of whose requests the log tells, but for hold-offs that lapsed and that only
    `m₀` has on record. -/
structure Abreast (log : TrackerLog) (now : Millis) (m m₀ : Manager) : Prop where
  rest : m = { m₀ with requests := m.requests }
  pending : m.requests.pending = m₀.requests.pending
  unanswered : ∀ bssid, log.unanswered? bssid = m₀.requests.heldUntil? bssid
  held : ∀ bssid, m.requests.holdOffs.get? bssid = m₀.requests.holdOffs.get? bssid ∨
    m.requests.holdOffs.get? bssid = none ∧ m₀.Lapsed now bssid

variable {log log₀ : TrackerLog} {now now' : Millis} {m' m₀ : Manager} {op : TrackerOperation}

theorem Lapsed.mono (h : m.Lapsed now bssid) (hnow : now ≤ now')
    (hsettings : m'.settings = m.settings)
    (hclosed : m.requests.pending.contains bssid = false →
      m'.requests.pending.contains bssid = false)
    (hheld : ∀ u ∈ m'.requests.heldUntil? bssid, u ∈ m.requests.heldUntil? bssid) :
    m'.Lapsed now' bssid := by
  refine ⟨hclosed h.1, fun u hu => ?_⟩
  rw [hsettings]
  exact UInt64.le_trans (h.2 u (hheld u hu)) hnow

theorem Lapsed.later (h : m.Lapsed now bssid) (hnow : now ≤ now') : m.Lapsed now' bssid :=
  h.mono hnow rfl id fun _ hu => hu

/-- The radio and the calls see the same of two managers with the same requests open and held
    off. -/
theorem requestFetch_congr (key : IdentityKey) (first biased : Bool)
    (hrest : m = { m₀ with requests := m.requests })
    (hmay : m.requests.mayRequest p.now bssid = m₀.requests.mayRequest p.now bssid) :
    (m.requestFetch p bssid key first biased).1 = (m₀.requestFetch p bssid key first biased).1 ∧
    (m.requestFetch p bssid key first biased).2 =
      { (m₀.requestFetch p bssid key first biased).2 with
        requests := (m.requestFetch p bssid key first biased).2.requests } := by
  rw [hrest]
  unfold requestFetch
  dsimp only
  rw [hmay]
  split
  · dsimp only [record]
    split
    · exact ⟨rfl, rfl⟩
    · exact ⟨rfl, rfl⟩
  · exact ⟨rfl, rfl⟩

theorem nextEnd_congr (hsettings : m.settings = m₀.settings)
    (hget : m.requests.holdOffs.get? bssid = m₀.requests.holdOffs.get? bssid) :
    m.nextEnd p bssid = m₀.nextEnd p bssid := by
  unfold nextEnd
  rw [hget, hsettings]

theorem abreast_new (settings : Settings) (matchers : Matchers) :
    Abreast [] 0 (new settings matchers) (new settings matchers) :=
  ⟨rfl, rfl, fun _ => rfl, fun _ => Or.inl rfl⟩

namespace Abreast

theorem settings (h : Abreast log now m m₀) : m.settings = m₀.settings := by
  rw [h.rest]

theorem history (h : Abreast log now m m₀) : m.history = m₀.history := by
  rw [h.rest]

/-- **A prune of the one keeps the two abreast.** -/
theorem prune (h : Abreast log now m m₀) (hnow : now ≤ p.now) :
    Abreast (m.tracked p .prune ++ log) p.now (m.track p .prune) m₀ where
  rest := by
    have hrest := h.rest
    unfold track
    rw [hrest]
  pending := h.pending
  unanswered bssid := (TrackerLog.unanswered?_forgotten ..).trans (h.unanswered bssid)
  held bssid := by
    by_cases hgone : bssid ∈ m.pruned p
    · -- what lapsed in the one lapsed in the other, where it stays on record
      refine Or.inr ⟨get?_track_prune_of_mem hgone, ?_⟩
      rcases h.held bssid with hsame | ⟨-, hlapsed⟩
      · apply (mem_pruned_iff.1 hgone).2.mono (UInt64.le_refl _) h.settings.symm
        · intro hclosed
          rwa [h.pending] at hclosed
        · intro u hu
          rwa [RequestTracker.heldUntil?, hsame]
      · exact hlapsed.later hnow
    · rw [get?_track_prune_of_not_mem hgone]
      exact (h.held bssid).imp_right fun hforgot => ⟨hforgot.1, hforgot.2.later hnow⟩

/-- A prompt request meets the same hold-off in both. -/
theorem get?_of_isPrompt (h : Abreast log now m m₀) (hnow : now ≤ p.now)
    (hprompt : m.IsPrompt log p (.request bssid key first biased)) :
    m.requests.holdOffs.get? bssid = m₀.requests.holdOffs.get? bssid := by
  rcases h.held bssid with hsame | ⟨hnone, hclosed, hpast⟩
  · exact hsame
  · cases hget : m₀.requests.holdOffs.get? bssid with
    | none => exact hnone
    | some held =>
      -- a hold-off that `m` forgot: its grace is over, and a prompt request came before that
      have hmem : held.expiresAt ∈ m₀.requests.heldUntil? bssid := by
        rw [RequestTracker.heldUntil?, hget]
        rfl
      rcases hprompt held.expiresAt (h.unanswered bssid ▸ hmem) with hopen | hearly
      · rw [h.pending, hclosed] at hopen
        cases hopen
      · rw [h.settings] at hearly
        exact absurd (UInt64.le_trans (hpast _ hmem) hnow) (UInt64.not_le.2 hearly)

theorem accepted (h : Abreast log now m m₀) (hnow : now ≤ p.now)
    (hget : m.requests.holdOffs.get? bssid = m₀.requests.holdOffs.get? bssid)
    (haccepted : (m.requestFetch p bssid key first biased).1 = true)
    (haccepted₀ : (m₀.requestFetch p bssid key first biased).1 = true)
    (hrest : (m.requestFetch p bssid key first biased).2 =
      { (m₀.requestFetch p bssid key first biased).2 with
        requests := (m.requestFetch p bssid key first biased).2.requests }) :
    Abreast (m.tracked p (.request bssid key first biased) ++ log) p.now
      (m.track p (.request bssid key first biased))
      (m₀.track p (.request bssid key first biased)) := by
  have hend : m.nextEnd p bssid = m₀.nextEnd p bssid := nextEnd_congr h.settings hget
  refine ⟨hrest, ?_, fun b => ?_, fun b => ?_⟩
  · rw [track, track, requests_requestFetch, requests_requestFetch, if_pos haccepted,
      if_pos haccepted₀, RequestTracker.issue, RequestTracker.issue, h.pending]
  · rw [tracked_of_accepted haccepted, track, heldUntil?_of_accepted haccepted₀, ← hend,
      List.singleton_append, TrackerLog.unanswered?, h.unanswered]
    simp only [eq_comm]
  · rw [track, track, get?_holdOffs_of_accepted haccepted, get?_holdOffs_of_accepted haccepted₀]
    by_cases hb : b = bssid
    · rw [if_pos hb, if_pos hb, hget, hend, h.settings]
      exact Or.inl rfl
    · -- what was forgotten of another access point is as it was
      rw [if_neg hb, if_neg hb]
      apply (h.held b).imp_right
      rintro ⟨hnone, hlapsed⟩
      refine ⟨hnone, hlapsed.mono hnow settings_requestFetch ?_ ?_⟩
      · intro hclosed
        rw [requests_requestFetch, if_pos haccepted₀, RequestTracker.issue,
          OrderedMap.contains_insert, decide_eq_false hb, Bool.false_or, hclosed]
      · intro u hu
        rwa [heldUntil?_of_accepted haccepted₀, if_neg hb] at hu

theorem refused (h : Abreast log now m m₀) (hnow : now ≤ p.now)
    (hrefused : ¬ (m.requestFetch p bssid key first biased).1 = true)
    (hrefused₀ : ¬ (m₀.requestFetch p bssid key first biased).1 = true)
    (hrest : (m.requestFetch p bssid key first biased).2 =
      { (m₀.requestFetch p bssid key first biased).2 with
        requests := (m.requestFetch p bssid key first biased).2.requests }) :
    Abreast (m.tracked p (.request bssid key first biased) ++ log) p.now
      (m.track p (.request bssid key first biased))
      (m₀.track p (.request bssid key first biased)) := by
  have hrequests : (m.track p (.request bssid key first biased)).requests = m.requests := by
    rw [track, requests_requestFetch, if_neg hrefused]
  have hrequests₀ : (m₀.track p (.request bssid key first biased)).requests = m₀.requests := by
    rw [track, requests_requestFetch, if_neg hrefused₀]
  rw [tracked_of_refused hrefused, List.nil_append]
  refine ⟨hrest, ?_, fun b => ?_, fun b => ?_⟩
  · rw [hrequests, hrequests₀, h.pending]
  · rw [hrequests₀, h.unanswered]
  · rw [hrequests, hrequests₀]
    apply (h.held b).imp_right
    rintro ⟨hnone, hlapsed⟩
    refine ⟨hnone, hlapsed.mono hnow settings_requestFetch ?_ ?_⟩
    · rw [hrequests₀]
      exact id
    · rw [hrequests₀]
      exact fun _ hu => hu

/-- **A prompt request comes to the same**, and keeps the two abreast. -/
theorem request (h : Abreast log now m m₀) (hnow : now ≤ p.now)
    (hprompt : m.IsPrompt log p (.request bssid key first biased)) :
    m.outcome p (.request bssid key first biased) =
      m₀.outcome p (.request bssid key first biased) ∧
    Abreast (m.tracked p (.request bssid key first biased) ++ log) p.now
      (m.track p (.request bssid key first biased))
      (m₀.track p (.request bssid key first biased)) := by
  have hget := h.get?_of_isPrompt hnow hprompt
  have hmay : m.requests.mayRequest p.now bssid = m₀.requests.mayRequest p.now bssid := by
    unfold RequestTracker.mayRequest RequestTracker.isHeldOff
    rw [h.pending, hget]
  have hfirst : m.requests.isFirstAttempt bssid = m₀.requests.isFirstAttempt bssid := by
    unfold RequestTracker.isFirstAttempt OrderedMap.contains
    rw [hget]
  obtain ⟨hsame, hrest⟩ := requestFetch_congr key first biased h.rest hmay
  by_cases haccepted₀ : (m₀.requestFetch p bssid key first biased).1 = true
  · have haccepted := hsame.trans haccepted₀
    refine ⟨?_, h.accepted hnow hget haccepted haccepted₀ hrest⟩
    rw [outcome_of_accepted haccepted, outcome_of_accepted haccepted₀, hfirst,
      nextEnd_congr h.settings hget]
  · have hrefused : ¬ (m.requestFetch p bssid key first biased).1 = true := hsame ▸ haccepted₀
    refine ⟨?_, h.refused hnow hrefused haccepted₀ hrest⟩
    rw [outcome_of_refused hrefused, outcome_of_refused haccepted₀, hfirst]

/-- **A completion keeps the two abreast.** -/
theorem complete (h : Abreast log now m m₀) (hnow : now ≤ p.now) :
    Abreast (m.tracked p (.complete bssid success) ++ log) p.now
      (m.track p (.complete bssid success)) (m₀.track p (.complete bssid success)) := by
  have hpending (m : Manager) (b : MacAddress) :
      (m.track p (.complete bssid success)).requests.pending.get? b =
        if b = bssid then none else m.requests.pending.get? b :=
    get?_pending_complete m.requests success
  have hopen : m.requests.pending.contains bssid = m₀.requests.pending.contains bssid := by
    rw [h.pending]
  refine ⟨?_, OrderedMap.ext_get? fun b => ?_, fun b => ?_, fun b => ?_⟩
  · have hrest := h.rest
    unfold track
    rw [hrest]
  · rw [hpending, hpending, h.pending]
  · rw [tracked_complete, hopen, RequestTracker.heldUntil?, get?_track_complete]
    by_cases hsolicited : m₀.requests.pending.contains bssid = true
    · rw [if_pos hsolicited, List.singleton_append, TrackerLog.unanswered?]
      by_cases hb : b = bssid ∧ success = true
      · rw [if_pos ⟨hb.1.symm, hb.2⟩, if_pos ⟨hb.1, hb.2, hsolicited⟩]
        rfl
      · rw [if_neg fun hc => hb ⟨hc.1.symm, hc.2⟩, if_neg fun hc => hb ⟨hc.1, hc.2.1⟩]
        exact h.unanswered b
    · rw [if_neg hsolicited, List.nil_append, if_neg fun hc => hsolicited hc.2.2]
      exact h.unanswered b
  · rw [get?_track_complete, get?_track_complete, hopen]
    by_cases hanswered : b = bssid ∧ success = true ∧ m₀.requests.pending.contains bssid = true
    · rw [if_pos hanswered, if_pos hanswered]
      exact Or.inl rfl
    · rw [if_neg hanswered, if_neg hanswered]
      apply (h.held b).imp_right
      rintro ⟨hnone, hlapsed⟩
      refine ⟨hnone, hlapsed.mono hnow rfl ?_ ?_⟩
      · intro hclosed
        rw [OrderedMap.contains, hpending]
        split
        · rfl
        · exact hclosed
      · intro u hu
        rwa [RequestTracker.heldUntil?, get?_track_complete, if_neg hanswered] at hu

theorem later (h : Abreast log now m m₀) (hnow : now ≤ now') : Abreast log now' m m₀ :=
  { h with
    held := fun b => (h.held b).imp_right fun hforgot => ⟨hforgot.1, hforgot.2.later hnow⟩ }

theorem track (h : Abreast log now m m₀) (hnow : now ≤ p.now) (hop : op ≠ .prune)
    (hprompt : m.IsPrompt log p op) :
    m.outcome p op = m₀.outcome p op ∧
      Abreast (m.tracked p op ++ log) p.now (m.track p op) (m₀.track p op) := by
  cases op with
  | request bssid key first biased => exact h.request hnow hprompt
  | complete bssid success => exact ⟨rfl, h.complete hnow⟩
  | prune => exact absurd rfl hop

theorem isPrompt_iff (h : Abreast log now m m₀) (h₀ : Abreast log₀ now m₀ m₀) :
    m.IsPrompt log p op ↔ m₀.IsPrompt log₀ p op := by
  cases op with
  | request bssid key first biased =>
    dsimp only [IsPrompt]
    rw [h.unanswered, h₀.unanswered, h.pending, h.settings]
  | complete bssid success => exact Iff.rfl
  | prune => exact Iff.rfl

end Abreast

theorem unpruned_cons_of_prune {s : TrackerStep} (h : s.2 = .prune) (rest : List TrackerStep) :
    unpruned (s :: rest) = unpruned rest :=
  List.filter_cons_of_neg (by simpa using h)

theorem unpruned_cons_of_ne {s : TrackerStep} (h : s.2 ≠ .prune) (rest : List TrackerStep) :
    unpruned (s :: rest) = s :: unpruned rest :=
  List.filter_cons_of_pos (by simpa using h)

/-- **A run and the same run without its prunes** are prompt together, and if so, all requests
    come to the same. -/
theorem Abreast.trackAll {steps : List TrackerStep} (h : Abreast log now m m₀)
    (h₀ : Abreast log₀ now m₀ m₀) (hclock : (now :: steps.map (·.1.now)).Pairwise (· ≤ ·)) :
    (m.Prompt log steps ↔ m₀.Prompt log₀ (unpruned steps)) ∧
    (m.Prompt log steps → m.outcomes steps = m₀.outcomes (unpruned steps) ∧
      ∃ now', Abreast (m.trackerLog steps ++ log) now' (m.trackAll steps)
        (m₀.trackAll (unpruned steps))) := by
  induction steps generalizing log log₀ now m m₀ with
  | nil => exact ⟨Iff.rfl, fun _ => ⟨rfl, now, h⟩⟩
  | cons s rest ih =>
    obtain ⟨hpast, hrest⟩ := List.pairwise_cons.1 hclock
    have hnow : now ≤ s.1.now := hpast _ List.mem_cons_self
    obtain ⟨p, op⟩ := s
    rw [trackerLog, List.append_assoc]
    by_cases hop : op = .prune
    · -- only the run with prunes takes this step
      subst hop
      obtain ⟨hiff, hsame⟩ := ih (h.prune hnow) (h₀.later hnow) hrest
      rw [unpruned_cons_of_prune rfl]
      exact ⟨(and_iff_right trivial).trans hiff, fun hprompt => hsame hprompt.2⟩
    · have hboth (hprompt : m.IsPrompt log p op) :
          Abreast (m.tracked p op ++ log) p.now (m.track p op) (m₀.track p op) ∧
            Abreast (m₀.tracked p op ++ log₀) p.now (m₀.track p op) (m₀.track p op) :=
        ⟨(h.track hnow hop hprompt).2,
          (h₀.track hnow hop ((h.isPrompt_iff h₀).1 hprompt)).2⟩
      rw [unpruned_cons_of_ne hop]
      constructor
      · rw [Prompt, Prompt, ← h.isPrompt_iff h₀]
        apply and_congr_right
        intro hprompt
        obtain ⟨hafter, hafter₀⟩ := hboth hprompt
        exact (ih hafter hafter₀ hrest).1
      · rintro ⟨hprompt, hlater⟩
        obtain ⟨hafter, hafter₀⟩ := hboth hprompt
        obtain ⟨hrequests, habreast⟩ := (ih hafter hafter₀ hrest).2 hlater
        refine ⟨?_, habreast⟩
        rw [outcomes, outcomes, hrequests, (h.track hnow hop hprompt).1]

/-- **Pruning is bounded, and nobody notices.**  A prune keeps the hold-offs of access points with
    an open request and those whose end is not yet the longest hold-off ago, leaves all requests
    open, and returns the number of hold-offs that it drops.  And two runs of the tracker that
    differ only in their prunes cannot be told apart by their requests, as long as the clock does
    not go back and the requests are prompt. -/
theorem prunes_go_unnoticed (settings : Settings) (matchers : Matchers) :
    (∀ (t : RequestTracker) (s : RequestSettings) (now : Millis),
      let (count, after) := t.prune s now
      (∀ bssid held, after.holdOffs.get? bssid = some held ↔
        t.holdOffs.get? bssid = some held ∧ (t.pending.contains bssid = true ∨
          now.toNat < min (held.expiresAt.toNat + s.grace.toNat) Millis.latest)) ∧
      after.pending = t.pending ∧
      count = {bssid | t.holdOffs.contains bssid = true ∧
        after.holdOffs.contains bssid = false}.ncard) ∧
    (∀ s : RequestSettings, s.grace.toNat = s.holdOffLength s.maxRetries.toNat ∧
      ∀ n, s.holdOffLength n ≤ s.grace.toNat) ∧
    ∀ steps steps' : List TrackerStep, unpruned steps = unpruned steps' →
      (steps.map (·.1.now)).Pairwise (· ≤ ·) → (steps'.map (·.1.now)).Pairwise (· ≤ ·) →
      let m := new settings matchers
      m.Prompt [] steps → m.outcomes steps = m.outcomes steps' ∧
        (m.trackAll steps).requests.pending = (m.trackAll steps').requests.pending ∧
        (m.trackAll steps).history = (m.trackAll steps').history := by
  refine ⟨fun t s now => ⟨fun bssid held => ?_, rfl, OrderedMap.size_sub_size_filter _ _⟩,
    fun s => ⟨s.toNat_grace, s.holdOffLength_le_grace⟩, ?_⟩
  · rw [RequestTracker.keptHoldOffs, OrderedMap.get?_filter, Option.filter_eq_some_iff,
      Bool.or_eq_true, decide_eq_true_iff, UInt64.lt_iff_toNat_lt, Millis.toNat_after]
  · intro steps steps' hsame hclock hclock' m hprompt
    have hnew : Abreast [] 0 m m := abreast_new settings matchers
    have hzero (steps : List TrackerStep) (h : (steps.map (·.1.now)).Pairwise (· ≤ ·)) :
        ((0 : Millis) :: steps.map (·.1.now)).Pairwise (· ≤ ·) :=
      List.pairwise_cons.2 ⟨fun _ _ => UInt64.le_iff_toNat_le.2 (Nat.zero_le _), h⟩
    obtain ⟨hiff, hrun⟩ := hnew.trackAll hnew (hzero steps hclock)
    obtain ⟨hiff', hrun'⟩ := hnew.trackAll hnew (hzero steps' hclock')
    obtain ⟨houtcomes, _, habreast⟩ := hrun hprompt
    obtain ⟨houtcomes', _, habreast'⟩ := hrun' (hiff'.2 (hsame ▸ hiff.1 hprompt))
    rw [houtcomes, houtcomes', habreast.pending, habreast'.pending, habreast.history,
      habreast'.history, hsame]
    exact ⟨rfl, rfl, rfl⟩

def failingTwice : List TrackerStep :=
  let bssid : MacAddress := ⟨1⟩
  let key : IdentityKey := ⟨none, 1, 0, 0⟩
  [(.obligingAt 0, .request bssid key true false), (.obligingAt 1, .complete bssid false),
    (.obligingAt 29, .request bssid key false false), (.obligingAt 30, .complete bssid false),
    (.obligingAt 68, .request bssid key false false)]

def failingAndPruned : List TrackerStep :=
  failingTwice.take 2 ++ [(.obligingAt 29, .prune)] ++ (failingTwice.drop 2).take 2 ++
    [(.obligingAt 68, .prune)] ++ failingTwice.drop 4 ++ [(.obligingAt 1000, .prune)]

theorem prunes_go_unnoticed_failing_twice :
    let m := new doublingOnce .default
    m.outcomes failingAndPruned = [⟨true, true, some 10⟩, ⟨true, false, some 49⟩,
      ⟨true, false, some 88⟩] ∧
    m.outcomes failingTwice = m.outcomes failingAndPruned := by
  intro m
  obtain ⟨-, -, hruns⟩ := prunes_go_unnoticed doublingOnce .default
  have hsame : unpruned failingAndPruned = unpruned failingTwice := rfl
  obtain ⟨houtcomes, -, -⟩ := hruns failingAndPruned failingTwice hsame (by decide) (by decide)
    (by decide)
  exact ⟨by decide, houtcomes.symm⟩

/-- When the grace is over it is too late: pruned now, the access point is as good as new. -/
example :
    let bssid : MacAddress := ⟨1⟩
    let key : IdentityKey := ⟨none, 1, 0, 0⟩
    let late : List TrackerStep := [(.obligingAt 0, .request bssid key true false),
      (.obligingAt 1, .complete bssid false), (.obligingAt 30, .prune),
      (.obligingAt 30, .request bssid key false false)]
    let m := new doublingOnce .default
    ¬ m.Prompt [] late ∧ m.outcomes late = [⟨true, true, some 10⟩, ⟨true, true, some 40⟩] ∧
      m.outcomes (unpruned late) = [⟨true, true, some 10⟩, ⟨true, false, some 50⟩] := by
  decide

end Manager

end Hotspot
