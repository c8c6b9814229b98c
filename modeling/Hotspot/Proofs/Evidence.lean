/-
  Hotspot/Proofs/Evidence.lean
  ============================
  **What verdicts rest on.**

  A verdict rests on two kinds of evidence: that the network is home, and that it is a partner's.
  Each rule looks for one entry in the lists of the network that fits the profile, and the rules
  for SIM cards are those for all profiles and two more.  So a verdict can only rise when all
  evidence of one network is upheld by another (`Upholds.le`), and a SIM card is at least as
  welcome as any other credential (`realmVerdict_le_simVerdict`).
-/
import Mathlib.Data.Nat.Basic
import Mathlib.Order.Lattice
import Hotspot.Proofs.LetterCase

namespace Hotspot

open Anqp (Elements)

/-! ### The order of verdicts -/

namespace Verdict

/-- Nothing, a partner's network, home. -/
def rank : Verdict → Nat
  | .none => 0
  | .roaming => 1
  | .home => 2

theorem rank_injective : Function.Injective rank := by
  intro v w h
  cases v <;> cases w <;> first | rfl | cases h

instance : LinearOrder Verdict := LinearOrder.lift' rank rank_injective

theorem none_le (v : Verdict) : .none ≤ v := Nat.zero_le v.rank

def ofEvidence (home roaming : Bool) : Verdict :=
  if home then .home else if roaming then .roaming else .none

theorem ofEvidence_le {home roaming home' roaming' : Bool} (hhome : home = true → home' = true)
    (hroaming : roaming = true → roaming' = true) :
    ofEvidence home roaming ≤ ofEvidence home' roaming' := by
  cases home with
  | true =>
    rw [hhome rfl]
    exact le_refl _
  | false =>
    cases roaming with
    | true =>
      rw [hroaming rfl]
      cases home' <;> decide
    | false => exact none_le _

/-- More evidence of a partner makes one of a network that is nothing otherwise, and no other
    difference. -/
theorem ofEvidence_ne_iff {home roaming roaming' : Bool} {more : Prop}
    (h : roaming' = true ↔ roaming = true ∨ more) :
    (ofEvidence home roaming' ≠ ofEvidence home roaming ↔
      ofEvidence home roaming = .none ∧ more) ∧
    (ofEvidence home roaming' ≠ ofEvidence home roaming → ofEvidence home roaming' = .roaming) := by
  cases home with
  | true => simp [ofEvidence]
  | false =>
    cases roaming with
    | true => simp [ofEvidence, h.2 (Or.inl rfl)]
    | false =>
      cases roaming' with
      | true => simpa [ofEvidence] using h
      | false => simpa [ofEvidence] using h

end Verdict

variable {p p' : Profile} {es es' : Elements} {rc rc' : Option RoamingConsortium}

theorem realmVerdict_eq : realmVerdict p es rc =
    .ofEvidence (listsDomain es p.fqdn) (listsOi es rc p || listsRealm es p) := rfl

theorem simVerdict_eq : simVerdict p es rc =
    .ofEvidence (listsDomain es p.fqdn || listsOperator es p.subscriberNumber)
      (listsOi es rc p || listsRealm es p || listsPlmn es p.subscriberNumber) := rfl

/-! ### What each rule looks for -/

theorem listsDomain_iff {domain : String} : listsDomain es domain = true ↔
    domain ≠ "" ∧ ∃ d ∈ es.names .domainName, sameName d domain = true := by
  rw [listsDomain, Bool.and_eq_true, bne_iff_ne, List.any_eq_true]

theorem listsOperator_iff {number : List Char} : listsOperator es number = true ↔
    ∃ domain, threeGppDomain? number = some domain ∧ listsDomain es domain = true := by
  unfold listsOperator
  cases threeGppDomain? number <;> simp

theorem listsRealm_iff : listsRealm es p = true ↔ ∃ c, p.config.credential = some c ∧
    ∃ r ∈ es.names .naiRealm, sameName r c.realm = true := by
  unfold listsRealm
  cases p.config.credential <;> simp

theorem listsOi_iff : listsOi es rc p = true ↔ ∃ sp, p.config.homeSp = some sp ∧
    ∃ oi ∈ sp.ois, oi ∈ es.ois ∨ oi ∈ beaconOis rc := by
  unfold listsOi
  cases p.config.homeSp <;> simp

theorem listsPlmn_iff {number : List Char} : listsPlmn es number = true ↔ number ≠ [] ∧
    ∃ plmn ∈ es.names .threeGppNetwork, plmn.toList <+: number ∨ number <+: plmn.toList := by
  simp [listsPlmn]

/-- A number of fewer than five digits names no operator. -/
theorem listsOperator_of_short {number : List Char} (h : number.length < 5) :
    listsOperator es number = false := by
  rw [listsOperator, threeGppDomain?, if_pos (by simp [h])]

theorem listsPlmn_nil : listsPlmn es [] = false := rfl

/-! ### Evidence upheld -/

/-- Whatever counts for a profile in one network counts for another profile in another network. -/
structure Upholds (p p' : Profile) (es es' : Elements) (rc rc' : Option RoamingConsortium) :
    Prop where
  domain : listsDomain es p.fqdn = true → listsDomain es' p'.fqdn = true
  operator : listsOperator es p.subscriberNumber = true →
    listsOperator es' p'.subscriberNumber = true
  oi : listsOi es rc p = true → listsOi es' rc' p' = true
  realm : listsRealm es p = true → listsRealm es' p' = true
  plmn : listsPlmn es p.subscriberNumber = true → listsPlmn es' p'.subscriberNumber = true

/-- **Verdicts follow the evidence.** -/
theorem Upholds.le (h : Upholds p p' es es' rc rc') (type : CredentialType) :
    Matchers.default type p es rc ≤ Matchers.default type p' es' rc' := by
  have hname : listsOi es rc p = true ∨ listsRealm es p = true →
      listsOi es' rc' p' = true ∨ listsRealm es' p' = true := Or.imp h.oi h.realm
  have hrealm : realmVerdict p es rc ≤ realmVerdict p' es' rc' := by
    rw [realmVerdict_eq, realmVerdict_eq]
    refine Verdict.ofEvidence_le h.domain ?_
    simpa only [Bool.or_eq_true] using hname
  have hsim : simVerdict p es rc ≤ simVerdict p' es' rc' := by
    rw [simVerdict_eq, simVerdict_eq]
    apply Verdict.ofEvidence_le
    · simpa only [Bool.or_eq_true] using Or.imp h.domain h.operator
    · simpa only [Bool.or_eq_true] using Or.imp hname h.plmn
  cases type with
  | user => exact hrealm
  | sim => exact hsim
  | certificate => exact hrealm

/-! ### SIM cards and the others -/

theorem realmVerdict_le_simVerdict : realmVerdict p es rc ≤ simVerdict p es rc := by
  rw [realmVerdict_eq, simVerdict_eq]
  apply Verdict.ofEvidence_le
  · intro hdomain
    rw [hdomain, Bool.true_or]
  · intro hname
    rw [hname, Bool.true_or]

/-- Where the network names no operator of the number by its domain, the number can only make a
    partner of a network that is nothing otherwise. -/
theorem simVerdict_ne_iff (h : listsOperator es p.subscriberNumber = false) :
    (simVerdict p es rc ≠ realmVerdict p es rc ↔
      realmVerdict p es rc = .none ∧ listsPlmn es p.subscriberNumber = true) ∧
    (simVerdict p es rc ≠ realmVerdict p es rc → simVerdict p es rc = .roaming) := by
  rw [simVerdict_eq, realmVerdict_eq, h, Bool.or_false]
  exact Verdict.ofEvidence_ne_iff (Bool.or_eq_true_iff ..)

/-- Without a number a SIM card is like any other credential. -/
theorem simVerdict_of_no_number (h : p.subscriberNumber = []) :
    simVerdict p es rc = realmVerdict p es rc := by
  have hoperator : listsOperator es p.subscriberNumber = false :=
    listsOperator_of_short (by rw [h]; decide)
  by_contra hdiffers
  obtain ⟨-, hplmn⟩ := (simVerdict_ne_iff hoperator).1.1 hdiffers
  rw [h, listsPlmn_nil] at hplmn
  cases hplmn

end Hotspot
