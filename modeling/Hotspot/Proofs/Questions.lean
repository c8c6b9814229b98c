/-
  Hotspot/Proofs/Questions.lean
  =============================
  **What was asked, apart from the answers.**

  Which calls an operation makes often depends on the state alone, while the answers are the
  platform's.  A call without its answer is its `question`; `Asks m m' questions` says that
  from `m` to `m'` just these questions were put, in this order.  What one wants to know of the
  calls, such as which profiles were uninstalled or what was stored, is a projection that does
  not look at answers, and is computed from the questions.
-/
import Hotspot.Proofs.Steps

namespace Hotspot

/-! ### Calls -/

namespace Call

/-- A call as if it had not been answered yet. -/
def question : Call → Call
  | .issueFetch bssid first biased _ => .issueFetch bssid first biased false
  | .install q _ => .install q none
  | .uninstall q _ => .uninstall q none
  | .verify ca _ => .verify ca none
  | .persist immediate s _ => .persist immediate s none
  | .resolve imsi _ => .resolve imsi none
  | .isAuthorized app _ => .isAuthorized app false
  | .connectedDomain _ => .connectedDomain none
  | c => c

/-- The profile whose credential a call takes out of the secure store. -/
def uninstalled? : Call → Option Profile
  | .uninstall q _ => some q
  | _ => none

def removedKey? : Call → Option String
  | .removeDescriptor key => some key
  | _ => none

def stored? : Call → Option PersistedState
  | .persist _ s _ => some s
  | _ => none

theorem uninstalled?_question (c : Call) : c.question.uninstalled? = c.uninstalled? := by
  cases c <;> rfl

theorem removedKey?_question (c : Call) : c.question.removedKey? = c.removedKey? := by
  cases c <;> rfl

theorem stored?_question (c : Call) : c.question.stored? = c.stored? := by
  cases c <;> rfl

theorem question_eq_disconnect_iff {c : Call} : c.question = .disconnect ↔ c = .disconnect := by
  cases c <;> simp [question]

end Call

theorem callsSince_append (calls : List Call) (h : History) :
    callsSince h (calls ++ h) = calls.reverse := by
  have hlength : (calls ++ h).length - h.length = calls.length := by
    rw [List.length_append]
    omega
  rw [callsSince, hlength, List.take_left]

theorem callsSince_self (h : History) : callsSince h h = [] := by
  simp [callsSince]

theorem callsSince_trans {h₁ h₂ h₃ : History} (h₁₂ : ∃ calls, h₂ = calls ++ h₁)
    (h₂₃ : ∃ calls, h₃ = calls ++ h₂) :
    callsSince h₁ h₃ = callsSince h₁ h₂ ++ callsSince h₂ h₃ := by
  obtain ⟨calls, rfl⟩ := h₁₂
  obtain ⟨calls', rfl⟩ := h₂₃
  rw [callsSince_append, callsSince_append, ← List.append_assoc, callsSince_append,
    List.reverse_append]

namespace Manager

theorem callsSince_record (m : Manager) (c : Call) :
    callsSince m.history (m.record c).history = [c] :=
  callsSince_append [c] m.history

/-! ### Questions -/

/-- From `m` to `m'` these questions were put, the oldest first. -/
def Asks (m m' : Manager) (questions : List Call) : Prop :=
  (callsSince m.history m'.history).map Call.question = questions ∧
    m'.history = (callsSince m.history m'.history).reverse ++ m.history

namespace Asks

variable {m m₁ m₂ m₃ : Manager} {qs qs' : List Call}

theorem of_history (calls : List Call) (h : m₂.history = calls.reverse ++ m₁.history)
    (hquestions : calls.map Call.question = qs) : Asks m₁ m₂ qs := by
  have hsince : callsSince m₁.history m₂.history = calls := by
    rw [h, callsSince_append, List.reverse_reverse]
  unfold Asks
  rw [hsince]
  exact ⟨hquestions, h⟩

theorem quiet (h : m₂.history = m₁.history) : Asks m₁ m₂ [] :=
  of_history [] h rfl

theorem record (m : Manager) (c : Call) : Asks m (m.record c) [c.question] :=
  of_history [c] rfl rfl

theorem trans (h : Asks m₁ m₂ qs) (h' : Asks m₂ m₃ qs') : Asks m₁ m₃ (qs ++ qs') := by
  obtain ⟨hquestions, hhistory⟩ := h
  obtain ⟨hquestions', hhistory'⟩ := h'
  apply of_history (callsSince m₁.history m₂.history ++ callsSince m₂.history m₃.history)
  · rw [List.reverse_append, List.append_assoc, ← hhistory, ← hhistory']
  · rw [List.map_append, hquestions, hquestions']

/-- What does not depend on the answers can be read off the questions. -/
theorem filterMap_eq {α : Type} (h : Asks m₁ m₂ qs) {view : Call → Option α}
    (hview : ∀ c : Call, view c.question = view c) :
    (callsSince m₁.history m₂.history).filterMap view = qs.filterMap view := by
  rw [← h.1, List.filterMap_map]
  congr 1
  funext c
  exact (hview c).symm

theorem disconnect_mem_iff (h : Asks m₁ m₂ qs) :
    Call.disconnect ∈ callsSince m₁.history m₂.history ↔ Call.disconnect ∈ qs := by
  rw [← h.1, List.mem_map]
  constructor
  · intro hmem
    exact ⟨.disconnect, hmem, rfl⟩
  · rintro ⟨c, hmem, hc⟩
    rw [Call.question_eq_disconnect_iff] at hc
    exact hc ▸ hmem

end Asks

end Manager

end Hotspot
