/-
  Hotspot/Proofs/FalseEvidence.lean
  =================================
  **Evidence that tells nothing.**

  A number that is none, and a name that is empty, should not tell whose network it is.  The rules
  on names keep to this.  The rule on mobile networks compares numbers character by character,
  without asking what they are: a number with a letter in it is of the operator whose digits
  precede the letter (`malformed_number_counts_as_written`), and an empty network begins every
  number (`empty_network_is_everyone's`).  These are the only ways in which either is evidence.
-/
import Hotspot.Proofs.Coherence
import Hotspot.Proofs.Evidence
import Hotspot.Proofs.OrderedMap

namespace Hotspot

open Anqp (Element Elements Kind)

variable {p : Profile} {es : Elements} {rc : Option RoamingConsortium}

/-! ### Numbers that are none -/

/-- A number with anything but digits in it names no operator. -/
theorem listsOperator_of_malformed {number : List Char} (h : ∃ c ∈ number, c.isDigit = false) :
    listsOperator es number = false := by
  obtain ⟨c, hc, hdigit⟩ := h
  have hall : number.all Char.isDigit = false :=
    List.all_eq_false.2 ⟨c, hc, by rw [hdigit]; exact Bool.false_ne_true⟩
  rw [listsOperator, threeGppDomain?, if_pos (by simp [hall])]

/-- **What a malformed number is evidence of.**  No domain is derived from it.  It makes a partner
    of a network that is nothing otherwise just if it begins with a listed operator, or one begins
    with it. -/
theorem malformed_number_counts_as_written {sim : SimCredential} (hsim : p.config.sim = some sim)
    (hmalformed : ∃ c ∈ sim.stem, c.isDigit = false) (es : Elements)
    (rc : Option RoamingConsortium) :
    listsOperator es p.subscriberNumber = false ∧
    (simVerdict p es rc ≠ realmVerdict p es rc ↔ realmVerdict p es rc = .none ∧
      ∃ plmn ∈ es.names .threeGppNetwork, plmn.toList <+: sim.stem ∨ sim.stem <+: plmn.toList) ∧
    (simVerdict p es rc ≠ realmVerdict p es rc → simVerdict p es rc = .roaming) := by
  have hnumber : p.subscriberNumber = sim.stem := by rw [Profile.subscriberNumber, hsim]
  have hoperator : listsOperator es p.subscriberNumber = false :=
    listsOperator_of_malformed (hnumber ▸ hmalformed)
  have hsome : sim.stem ≠ [] := by
    obtain ⟨c, hc, -⟩ := hmalformed
    exact List.ne_nil_of_mem hc
  have hplmn : listsPlmn es p.subscriberNumber = true ↔ ∃ plmn ∈ es.names .threeGppNetwork,
      plmn.toList <+: sim.stem ∨ sim.stem <+: plmn.toList := by
    rw [hnumber, listsPlmn_iff]
    exact and_iff_right hsome
  rw [← hplmn]
  exact ⟨hoperator, simVerdict_ne_iff hoperator⟩

def misspelt : Profile :=
  let sim : SimCredential := { imsi := "310a5*", eapType := .sim }
  let credential := { Credential.ofRealm "realm" with sim := some sim }
  .new { ProfileConfig.ofSim "a.example" with credential := some credential } 0 ⟨10, "shop"⟩
    .saved .sim

/-- No domain makes a network home to such a number. -/
theorem malformed_number_counts_as_written_domain :
    let domain := "wlan.mnc0a5.mcc310.3gppnetwork.org"
    let es := Elements.ofList [.domainName [domain], .threeGppNetwork ["31", "311480"]]
    (∃ c ∈ ['3', '1', '0', 'a', '5'], c.isDigit = false) ∧
    listsOperator es misspelt.subscriberNumber = false ∧
    realmVerdict misspelt es none = .none ∧ simVerdict misspelt es none = .roaming := by
  intro domain es
  have hmalformed : ∃ c ∈ ['3', '1', '0', 'a', '5'], c.isDigit = false := ⟨'a', by simp, rfl⟩
  obtain ⟨hoperator, hiff, hroaming⟩ :=
    malformed_number_counts_as_written (p := misspelt) rfl hmalformed es none
  have hrealm : realmVerdict misspelt es none = .none := by decide
  have hlists : ∃ plmn ∈ es.names .threeGppNetwork, plmn.toList <+: ['3', '1', '0', 'a', '5'] ∨
      ['3', '1', '0', 'a', '5'] <+: plmn.toList := ⟨"31", by decide, Or.inl (by decide)⟩
  exact ⟨hmalformed, hoperator, hrealm, hroaming (hiff.2 ⟨hrealm, hlists⟩)⟩

/-- A letter does not keep a number from being one of the operator whose digits precede it. -/
theorem malformed_number_has_partner :
    let es := Elements.ofList [.threeGppNetwork ["310"]]
    misspelt.config.sim = some { imsi := "310a5*", eapType := .sim } ∧
    (∃ c ∈ misspelt.subscriberNumber, c.isDigit = false) ∧
    simVerdict misspelt es none = .roaming ∧ realmVerdict misspelt es none = .none := by
  intro es
  have hsim : simVerdict misspelt es none = .roaming := by decide
  exact ⟨rfl, ⟨'a', by decide, rfl⟩, hsim, by decide⟩

/-! ### Empty names -/

def Anqp.Element.withoutEmpty : Element → Element
  | .venueName names => .venueName (names.filter (· ≠ ""))
  | .roamingConsortium ois => .roamingConsortium ois
  | .naiRealm realms => .naiRealm (realms.filter (· ≠ ""))
  | .threeGppNetwork plmns => .threeGppNetwork (plmns.filter (· ≠ ""))
  | .domainName domains => .domainName (domains.filter (· ≠ ""))
  | .hsFriendlyName names => .hsFriendlyName (names.filter (· ≠ ""))

def Anqp.Elements.withoutEmpty (es : Elements) (kinds : List Kind) : Elements :=
  es.mapValues fun k e => if k ∈ kinds then e.withoutEmpty else e

namespace Anqp.Elements

variable {kinds : List Kind}

theorem mem_names_withoutEmpty {k : Kind} {name : String} :
    name ∈ (es.withoutEmpty kinds).names k ↔ name ∈ es.names k ∧ (k ∈ kinds → name ≠ "") := by
  unfold names withoutEmpty
  rw [OrderedMap.get?_mapValues]
  cases es.get? k with
  | none => simp
  | some e =>
    by_cases hk : k ∈ kinds
    · cases e <;> simp [hk, Element.withoutEmpty, Element.names]
    · simp [hk]

theorem ois_withoutEmpty : (es.withoutEmpty kinds).ois = es.ois := by
  unfold ois withoutEmpty
  rw [OrderedMap.get?_mapValues]
  cases es.get? .roamingConsortium with
  | none => rfl
  | some e =>
    by_cases hk : .roamingConsortium ∈ kinds
    · cases e <;> simp [hk, Element.withoutEmpty, Element.ois]
    · simp [hk]

/-- A rule that no empty name fits finds the same without them. -/
theorem exists_name_withoutEmpty {k : Kind} {fits : String → Prop} (hempty : ¬fits "") :
    (∃ name ∈ (es.withoutEmpty kinds).names k, fits name) ↔ ∃ name ∈ es.names k, fits name := by
  constructor
  · rintro ⟨name, hname, hfits⟩
    exact ⟨name, (mem_names_withoutEmpty.1 hname).1, hfits⟩
  · rintro ⟨name, hname, hfits⟩
    exact ⟨name, mem_names_withoutEmpty.2 ⟨hname, fun _ h => hempty (h ▸ hfits)⟩, hfits⟩

end Anqp.Elements

section Rules

variable {kinds : List Kind}

/-- The rule on domains passes over empty names. -/
theorem listsDomain_withoutEmpty (domain : String) :
    listsDomain (es.withoutEmpty kinds) domain = listsDomain es domain := by
  rw [Bool.eq_iff_iff, listsDomain_iff, listsDomain_iff]
  apply and_congr_right
  intro hdomain
  exact Elements.exists_name_withoutEmpty fun h => hdomain ((eq_empty_iff_of_sameName h).1 rfl)

theorem listsOperator_withoutEmpty (number : List Char) :
    listsOperator (es.withoutEmpty kinds) number = listsOperator es number := by
  unfold listsOperator
  cases threeGppDomain? number with
  | none => rfl
  | some domain => exact listsDomain_withoutEmpty domain

/-- The rule on realms passes over them when the credential has a realm. -/
theorem listsRealm_withoutEmpty (hrealm : ∀ c, p.config.credential = some c → c.realm ≠ "") :
    listsRealm (es.withoutEmpty kinds) p = listsRealm es p := by
  rw [Bool.eq_iff_iff, listsRealm_iff, listsRealm_iff]
  apply exists_congr
  intro c
  apply and_congr_right
  intro hc
  exact Elements.exists_name_withoutEmpty fun h => hrealm c hc ((eq_empty_iff_of_sameName h).1 rfl)

theorem listsOi_withoutEmpty : listsOi (es.withoutEmpty kinds) rc p = listsOi es rc p := by
  unfold listsOi
  rw [Elements.ois_withoutEmpty]

/-- The rule on mobile networks takes an empty one for that of every number. -/
theorem listsPlmn_iff_withoutEmpty {number : List Char} : listsPlmn es number = true ↔
    listsPlmn (es.withoutEmpty kinds) number = true ∨
      .threeGppNetwork ∈ kinds ∧ number ≠ [] ∧ "" ∈ es.names .threeGppNetwork := by
  simp only [listsPlmn_iff, Elements.mem_names_withoutEmpty]
  constructor
  · rintro ⟨hnumber, plmn, hplmn, halike⟩
    by_cases hempty : .threeGppNetwork ∈ kinds ∧ plmn = ""
    · exact Or.inr ⟨hempty.1, hnumber, hempty.2 ▸ hplmn⟩
    · exact Or.inl ⟨hnumber, plmn, ⟨hplmn, fun hk h => hempty ⟨hk, h⟩⟩, halike⟩
  · rintro (⟨hnumber, plmn, ⟨hplmn, -⟩, halike⟩ | ⟨-, hnumber, hplmn⟩)
    · exact ⟨hnumber, plmn, hplmn, halike⟩
    · exact ⟨hnumber, "", hplmn, Or.inl List.nil_prefix⟩

variable (hrealm : ∀ c, p.config.credential = some c → c.realm ≠ "")
include hrealm

theorem realmVerdict_withoutEmpty :
    realmVerdict p (es.withoutEmpty kinds) rc = realmVerdict p es rc := by
  rw [realmVerdict_eq, realmVerdict_eq, listsDomain_withoutEmpty, listsRealm_withoutEmpty hrealm,
    listsOi_withoutEmpty]

/-- For a SIM card it is the empty mobile network that makes a difference. -/
theorem simVerdict_withoutEmpty_ne_iff :
    (simVerdict p es rc ≠ simVerdict p (es.withoutEmpty kinds) rc ↔
      simVerdict p (es.withoutEmpty kinds) rc = .none ∧
        .threeGppNetwork ∈ kinds ∧ p.subscriberNumber ≠ [] ∧ "" ∈ es.names .threeGppNetwork) ∧
    (simVerdict p es rc ≠ simVerdict p (es.withoutEmpty kinds) rc →
      simVerdict p es rc = .roaming) := by
  rw [simVerdict_eq, simVerdict_eq, listsDomain_withoutEmpty, listsOperator_withoutEmpty,
    listsRealm_withoutEmpty hrealm, listsOi_withoutEmpty]
  apply Verdict.ofEvidence_ne_iff
  rw [Bool.or_eq_true, Bool.or_eq_true (_ || _) (listsPlmn (es.withoutEmpty kinds) _), or_assoc,
    listsPlmn_iff_withoutEmpty]

end Rules

/-! ### Complete profiles -/

namespace ProfileConfig

variable {config : ProfileConfig} {type : CredentialType}

theorem credential_of_validate (h : config.validate = .ok type) :
    ∃ c, config.credential = some c ∧ c.realm ≠ "" ∧
      c.validate config.updateIdentifier = .ok type := by
  obtain ⟨_, -, h⟩ := bind_eq_ok_iff.1 h
  obtain ⟨_, -, h⟩ := bind_eq_ok_iff.1 h
  obtain ⟨_, -, h⟩ := bind_eq_ok_iff.1 h
  obtain ⟨c, hc, h⟩ := bind_eq_ok_iff.1 h
  obtain ⟨_, hrealm, h⟩ := bind_eq_ok_iff.1 h
  exact ⟨c, Defect.eq_some_of_ifMissing hc, Defect.of_unless hrealm, h⟩

theorem stem_of_validate (h : config.validate = .ok type) {sim : SimCredential}
    (hsim : config.sim = some sim) : sim.stem ≠ [] := by
  obtain ⟨c, hc, -, h⟩ := credential_of_validate h
  rw [ProfileConfig.sim, hc, Option.bind_some] at hsim
  unfold Credential.validate at h
  -- with a SIM card a credential is complete if it has nothing else, and if its number is right
  split at h
  · simp_all
  · rename_i sim' _ hsim' _
    obtain rfl := Option.some.inj (hsim.symm.trans hsim')
    obtain ⟨_, h, -⟩ := bind_eq_ok_iff.1 h
    obtain ⟨_, himsi, -⟩ := bind_eq_ok_iff.1 h
    have hvalid := Defect.of_unless himsi
    intro hempty
    simp [SimCredential.hasValidImsi, hempty] at hvalid
  · simp_all
  · simp_all
  · cases h

end ProfileConfig

def Anqp.Kind.ofNames : List Kind := [.domainName, .naiRealm, .threeGppNetwork]

/-- **Which empty names are evidence.**  For a complete profile, an empty domain or realm is none.
    An empty mobile network makes a partner for every SIM card of a network that is nothing
    otherwise. -/
theorem only_empty_networks_count {type : CredentialType} (hvalid : p.config.validate = .ok type)
    (es : Elements) (rc : Option RoamingConsortium) :
    Matchers.default p.credentialType p (es.withoutEmpty [.domainName, .naiRealm]) rc =
      Matchers.default p.credentialType p es rc ∧
    (Matchers.default p.credentialType p es rc ≠
        Matchers.default p.credentialType p (es.withoutEmpty Kind.ofNames) rc ↔
      Matchers.default p.credentialType p (es.withoutEmpty Kind.ofNames) rc = .none ∧
        p.credentialType = .sim ∧ (∃ sim, p.config.sim = some sim) ∧
        "" ∈ es.names .threeGppNetwork) ∧
    (Matchers.default p.credentialType p es rc ≠
        Matchers.default p.credentialType p (es.withoutEmpty Kind.ofNames) rc →
      Matchers.default p.credentialType p es rc = .roaming) := by
  have hrealm : ∀ c, p.config.credential = some c → c.realm ≠ "" := by
    obtain ⟨c, hc, hrealm, -⟩ := ProfileConfig.credential_of_validate hvalid
    intro c' hc'
    exact Option.some.inj (hc.symm.trans hc') ▸ hrealm
  have hnumber : p.subscriberNumber ≠ [] ↔ ∃ sim, p.config.sim = some sim := by
    unfold Profile.subscriberNumber
    cases hsim : p.config.sim with
    | none => simp
    | some sim => simp [ProfileConfig.stem_of_validate hvalid hsim]
  have hequal {kinds} : realmVerdict p (es.withoutEmpty kinds) rc = realmVerdict p es rc :=
    realmVerdict_withoutEmpty hrealm
  cases htype : p.credentialType with
  | user => simp [Matchers.default, hequal]
  | certificate => simp [Matchers.default, hequal]
  | sim =>
    -- the mobile networks are not among these, so there is no difference
    have hfew : simVerdict p es rc =
        simVerdict p (es.withoutEmpty [.domainName, .naiRealm]) rc := by
      by_contra hdiffers
      obtain ⟨-, hmem, -⟩ := (simVerdict_withoutEmpty_ne_iff hrealm).1.1 hdiffers
      exact absurd hmem (by decide)
    have hall := @simVerdict_withoutEmpty_ne_iff p es rc Kind.ofNames hrealm
    refine ⟨hfew.symm, hall.1.trans ?_, hall.2⟩
    rw [hnumber]
    simp [Kind.ofNames, Matchers.default]

/-- A provider's network without a name counts for the SIM cards of all the others. -/
theorem only_empty_networks_count_nameless :
    let p := Profile.new (.ofSim "a.example") 0 ⟨10, "shop"⟩ .saved .sim
    let es := Elements.ofList [.domainName ["", "b.example"], .naiRealm [""], .threeGppNetwork [""]]
    p.config.validate = .ok .sim ∧
    Matchers.default p.credentialType p (es.withoutEmpty Kind.ofNames) none = .none ∧
    Matchers.default p.credentialType p es none = .roaming ∧
    Matchers.default p.credentialType p (es.withoutEmpty [.domainName, .naiRealm]) none =
      .roaming := by
  intro p es
  have hvalid : p.config.validate = .ok .sim := by decide
  obtain ⟨hfew, hiff, hroaming⟩ := only_empty_networks_count hvalid es none
  have hnone : Matchers.default p.credentialType p (es.withoutEmpty Kind.ofNames) none = .none := by
    decide
  have hdiffers := hroaming (hiff.2 ⟨hnone, rfl, ⟨_, rfl⟩, by decide⟩)
  exact ⟨hvalid, hnone, hdiffers, hfew.trans hdiffers⟩

/-- Leaving out an empty mobile network changes the verdict on a complete profile. -/
theorem empty_network_is_partner :
    let p := Profile.new (.ofSim "a.example") 0 ⟨10, "shop"⟩ .saved .sim
    let es := Elements.ofList [.threeGppNetwork [""]]
    p.config.validate = .ok .sim ∧
    Matchers.default p.credentialType p es none = .roaming ∧
    Matchers.default p.credentialType p (es.withoutEmpty Kind.ofNames) none = .none := by
  decide

end Hotspot
