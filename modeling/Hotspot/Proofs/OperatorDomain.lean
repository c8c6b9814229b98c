/-
  Hotspot/Proofs/OperatorDomain.lean
  ==================================
  **How much of a subscriber number its operator's domain is made of.**

  The domain of an operator is made of a country code and a network code.  The country code is
  the first three digits of a number; how long the network code is, a number does not tell.  From
  a number of five digits it is taken to be two digits long, and from any longer one three.  So
  all digits from the seventh on make no difference (`networkCode_append`), but the sixth does: a
  number of five digits that goes on is no longer known by the domain that was derived from those
  five, unless the digits happen to write the same code (`networkCode_append_eq_iff`).
-/
import Hotspot.Proofs.CompleteConfigs
import Hotspot.Proofs.Evidence

namespace Hotspot

open Anqp (Elements)

/-! ### The parts of the domain -/

/-- The network code that is read from a subscriber number, in three digits. -/
def networkCode (number : List Char) : List Char :=
  if 3 ≤ (number.drop 3).length then (number.drop 3).take 3 else '0' :: number.drop 3

def operatorDomain (network country : List Char) : String :=
  "wlan.mnc" ++ String.ofList network ++ ".mcc" ++ String.ofList country ++ ".3gppnetwork.org"

section Domain

variable {number more network country network' country' : List Char}

theorem threeGppDomain?_of_digits (hdigits : ∀ c ∈ number, Char.isDigit c = true)
    (hlength : 5 ≤ number.length) :
    threeGppDomain? number = some (operatorDomain (networkCode number) (number.take 3)) := by
  have hall : number.all Char.isDigit = true := List.all_eq_true.2 hdigits
  rw [threeGppDomain?, if_neg (by simp [hall]; omega)]
  rfl

theorem length_networkCode (hlength : 5 ≤ number.length) : (networkCode number).length = 3 := by
  rw [networkCode]
  split
  · rw [List.length_take]
    omega
  · rw [List.length_cons, List.length_drop] at *
    omega

theorem networkCode_of_six (hlength : 6 ≤ number.length) :
    networkCode number = (number.drop 3).take 3 := by
  rw [networkCode, if_pos (by rw [List.length_drop]; omega)]

/-- From the sixth digit on a number may go on as it likes. -/
theorem networkCode_append (hlength : 6 ≤ number.length) (more : List Char) :
    networkCode (number ++ more) = networkCode number := by
  rw [networkCode_of_six hlength, networkCode_of_six (by rw [List.length_append]; omega),
    List.drop_append_of_le_length (by omega),
    List.take_append_of_le_length (by rw [List.length_drop]; omega)]

/-- A number of five digits is read as if its network code began with a zero, and one that goes on
    as if the code went on: the codes are the same if all of it is zeros. -/
theorem networkCode_append_eq_iff (hlength : 5 ≤ number.length) (more : List Char) :
    networkCode (number ++ more) = networkCode number ↔
      6 ≤ number.length ∨ more = [] ∨
        ∃ rest, number.drop 3 = ['0', '0'] ∧ more = '0' :: rest := by
  by_cases hsix : 6 ≤ number.length
  · exact iff_of_true (networkCode_append hsix more) (Or.inl hsix)
  · rw [or_iff_right hsix]
    have hfive : number.length = 5 := by omega
    match number, hfive, more with
    | [a, b, c, x, y], _, [] => simp
    | [a, b, c, x, y], _, d :: rest =>
      have hcode : networkCode [a, b, c, x, y] = ['0', x, y] := rfl
      have hlonger : networkCode ([a, b, c, x, y] ++ d :: rest) = [x, y, d] := by
        rw [networkCode_of_six (by simp)]
        rfl
      rw [hcode, hlonger, or_iff_right (List.cons_ne_nil d rest)]
      constructor
      · intro h
        obtain ⟨rfl, rfl, rfl⟩ : x = '0' ∧ y = x ∧ d = y := by simpa using h
        exact ⟨rest, rfl, rfl⟩
      · rintro ⟨rest', hzeros, hmore⟩
        obtain ⟨rfl, rfl⟩ : x = '0' ∧ y = '0' := by simpa using hzeros
        rw [(List.cons.inj hmore).1]

theorem isDigit_of_mem_networkCode (hdigits : ∀ c ∈ number, Char.isDigit c = true) {c : Char}
    (hc : c ∈ networkCode number) : Char.isDigit c = true := by
  rw [networkCode] at hc
  split at hc
  · exact hdigits c (List.mem_of_mem_drop (List.mem_of_mem_take hc))
  · rcases List.mem_cons.1 hc with rfl | hc
    · rfl
    · exact hdigits c (List.mem_of_mem_drop hc)

theorem map_toLower_of_digits (hdigits : ∀ c ∈ number, Char.isDigit c = true) :
    number.map Char.toLower = number := by
  have hdigit (c : Char) : Char.isDigit c = true → c.toLower = c := by
    by_cases hc : c.toNat < 128
    · exact Text.forall_ascii (P := fun c => c.isDigit = true → c.toLower = c) (by decide) hc
    · exact fun _ => Text.toLower_of_not_ascii hc
  rw [List.map_congr_left fun c hc => hdigit c (hdigits c hc), List.map_id']

/-- Domains of one country are told apart by their network codes. -/
theorem sameName_operatorDomain_iff (hnetwork : ∀ c ∈ network, Char.isDigit c = true)
    (hnetwork' : ∀ c ∈ network', Char.isDigit c = true)
    (hlength : network.length = network'.length) :
    sameName (operatorDomain network country) (operatorDomain network' country) = true ↔
      network = network' := by
  rw [sameName_iff]
  simp only [operatorDomain, String.toList_append, String.toList_ofList, List.map_append,
    List.append_assoc, List.append_cancel_left_eq, map_toLower_of_digits hnetwork,
    map_toLower_of_digits hnetwork']
  constructor
  · intro h
    exact (List.append_inj h hlength).1
  · rintro rfl
    rfl

theorem operatorDomain_ne_empty (network country : List Char) :
    operatorDomain network country ≠ "" := by
  intro h
  have hnil := String.toList_eq_nil_iff.2 h
  simp [operatorDomain] at hnil

theorem networkCode_take_six (number : List Char) :
    networkCode (number.take 6) = networkCode number := by
  by_cases hlength : 6 ≤ number.length
  · have hsix : (number.take 6).length = 6 := List.length_take_of_le hlength
    rw [← networkCode_append hsix.ge (number.drop 6), List.take_append_drop]
  · rw [List.take_of_length_le (by omega)]

/-- Six digits of a number name its operator as well as all of it. -/
theorem listsOperator_take_six (es : Elements) (hdigits : ∀ c ∈ number, Char.isDigit c = true)
    (hlength : 5 ≤ number.length) :
    listsOperator es (number.take 6) = listsOperator es number := by
  have hdigits' : ∀ c ∈ number.take 6, Char.isDigit c = true := fun c hc =>
    hdigits c (List.mem_of_mem_take hc)
  have hlength' : 5 ≤ (number.take 6).length := by
    rw [List.length_take]
    omega
  rw [listsOperator, listsOperator, threeGppDomain?_of_digits hdigits' hlength',
    threeGppDomain?_of_digits hdigits hlength, networkCode_take_six, List.take_take]
  rfl

end Domain

/-! ### Profiles -/

def Profile.withImsi (q : Profile) (imsi : String) : Profile :=
  { q with config := { q.config with
      credential := q.config.credential.map fun c =>
        { c with sim := c.sim.map fun sim => { sim with imsi } } } }

section Profiles

variable {q : Profile} {sim : SimCredential} {number more : List Char} {es : Elements}
  {rc : Option RoamingConsortium}

theorem simVerdict_eq_home_iff {p : Profile} : simVerdict p es rc = .home ↔
    listsDomain es p.fqdn = true ∨ listsOperator es p.subscriberNumber = true := by
  rw [simVerdict_eq, Verdict.ofEvidence, ← Bool.or_eq_true]
  split
  · exact iff_of_true rfl ‹_›
  · refine iff_of_false ?_ ‹_›
    split <;> exact Verdict.noConfusion

theorem subscriberNumber_withImsi (hsim : q.config.sim = some sim) (imsi : String) :
    (q.withImsi imsi).subscriberNumber = SimCredential.stem { sim with imsi } := by
  obtain ⟨c, hc, hcard⟩ := Option.bind_eq_some_iff.1 hsim
  simp [Profile.subscriberNumber, Profile.withImsi, ProfileConfig.sim, hc, hcard]

theorem subscriberNumber_masked (hsim : q.config.sim = some sim) :
    (q.withImsi (String.ofList (number ++ ['*']))).subscriberNumber = number := by
  rw [subscriberNumber_withImsi hsim]
  exact SimCredential.stem_of_mask String.toList_ofList

theorem subscriberNumber_whole (hsim : q.config.sim = some sim)
    (hdigits : ∀ c ∈ number, Char.isDigit c = true) :
    (q.withImsi (String.ofList number)).subscriberNumber = number := by
  have htext : ∀ c ∈ (String.ofList number).toList, Char.isDigit c = true := by
    rwa [String.toList_ofList]
  rw [subscriberNumber_withImsi hsim]
  exact (SimCredential.stem_of_digits htext).trans String.toList_ofList

/-- What a network lists that has one domain and nothing else. -/
theorem listsDomain_only_iff {d domain : String} :
    listsDomain (Elements.ofList [.domainName [d]]) domain = true ↔
      domain ≠ "" ∧ sameName d domain = true := by
  have hnames : (Elements.ofList [.domainName [d]]).names .domainName = [d] := rfl
  simp only [listsDomain_iff, hnames, List.mem_singleton, exists_eq_left]

/-- A card by its whole number is at home with a network that lists the domain of its profile or
    that of its operator. -/
theorem simVerdict_whole_eq_home_iff (hsim : q.config.sim = some sim)
    (hdigits : ∀ c ∈ number, Char.isDigit c = true) :
    simVerdict (q.withImsi (String.ofList number)) es rc = .home ↔
      listsDomain es q.fqdn = true ∨ listsOperator es number = true := by
  rw [simVerdict_eq_home_iff, subscriberNumber_whole hsim hdigits]
  exact Iff.rfl

/-- Every network that lists the operator of a number lists that of the longer number, or some
    other domain, just if both numbers have one network code or the operator's domain is the other
    one. -/
theorem listed_for_longer_iff (hdigits : ∀ c ∈ number ++ more, Char.isDigit c = true)
    (hlength : 5 ≤ number.length) (fqdn : String) :
    (∀ es, listsOperator es number = true →
      listsDomain es fqdn = true ∨ listsOperator es (number ++ more) = true) ↔
      networkCode (number ++ more) = networkCode number ∨
        ∃ domain, threeGppDomain? number = some domain ∧ sameName domain fqdn = true := by
  have hdigits' : ∀ c ∈ number, Char.isDigit c = true := fun c hc =>
    hdigits c (List.mem_append_left more hc)
  have hlength' : 5 ≤ (number ++ more).length := by
    rw [List.length_append]
    omega
  have hdomain := threeGppDomain?_of_digits hdigits' hlength
  have hdomain' := threeGppDomain?_of_digits hdigits hlength'
  rw [List.take_append_of_le_length (by omega)] at hdomain'
  constructor
  · intro hkept
    -- seen by the network that lists the operator's domain and nothing else
    have hlisted := listsOperator_iff.2
      ⟨_, hdomain, listsDomain_only_iff.2 ⟨operatorDomain_ne_empty _ _, sameName_refl _⟩⟩
    rcases hkept _ hlisted with hfqdn | hoperator
    · exact Or.inr ⟨_, hdomain, (listsDomain_only_iff.1 hfqdn).2⟩
    · obtain ⟨domain, hwhole, hlisted⟩ := listsOperator_iff.1 hoperator
      cases hdomain'.symm.trans hwhole
      have hsame := (listsDomain_only_iff.1 hlisted).2
      rw [sameName_operatorDomain_iff (fun _ => isDigit_of_mem_networkCode hdigits')
        (fun _ => isDigit_of_mem_networkCode hdigits)
        (by rw [length_networkCode hlength, length_networkCode hlength'])] at hsame
      exact Or.inl hsame.symm
  · intro hcase es hlisted
    obtain ⟨domain, hnumber, hdomains⟩ := listsOperator_iff.1 hlisted
    rcases hcase with hcodes | ⟨domain', hnumber', hsame⟩
    · rw [hdomain, ← hcodes, ← hdomain'] at hnumber
      exact Or.inr (listsOperator_iff.2 ⟨domain, hnumber, hdomains⟩)
    · cases hnumber.symm.trans hnumber'
      obtain ⟨hne, d, hd, hdomain⟩ := listsDomain_iff.1 hdomains
      refine Or.inl (listsDomain_iff.2 ⟨?_, d, hd, sameName_trans hdomain hsame⟩)
      exact fun h => hne ((eq_empty_iff_of_sameName hsame).2 h)

/-- **What a subscriber number tells of its operator.**  The first six digits decide.  A network
    that lists the operator of the leading digits is home to a card that carries only these.  It
    is home to every card that carries more just if the first six digits are among them, or
    nothing is added, or the digit that is added writes the same network code, or the domain is
    the profile's own. -/
theorem first_six_digits_decide (hsim : q.config.sim = some sim)
    (hdigits : ∀ c ∈ number ++ more, Char.isDigit c = true) (hlength : 5 ≤ number.length) :
    (∀ es rc, listsOperator es number = true →
      simVerdict (q.withImsi (String.ofList (number ++ ['*']))) es rc = .home) ∧
    (∀ es rc, simVerdict (q.withImsi (String.ofList (number ++ more))) es rc = .home ↔
      listsDomain es q.fqdn = true ∨ listsOperator es ((number ++ more).take 6) = true) ∧
    ((∀ es rc, listsOperator es number = true →
        simVerdict (q.withImsi (String.ofList (number ++ more))) es rc = .home) ↔
      (6 ≤ number.length ∨ more = [] ∨
        ∃ rest, number.drop 3 = ['0', '0'] ∧ more = '0' :: rest) ∨
      ∃ domain, threeGppDomain? number = some domain ∧ sameName domain q.fqdn = true) := by
  have hhome (es : Elements) (rc : Option RoamingConsortium) :
      simVerdict (q.withImsi (String.ofList (number ++ more))) es rc = .home ↔
        listsDomain es q.fqdn = true ∨ listsOperator es (number ++ more) = true :=
    simVerdict_whole_eq_home_iff hsim hdigits
  refine ⟨?_, ?_, ?_⟩
  · intro es rc hlisted
    rw [simVerdict_eq_home_iff, subscriberNumber_masked hsim]
    exact Or.inr hlisted
  · intro es rc
    have hlength' : 5 ≤ (number ++ more).length := by
      rw [List.length_append]
      omega
    rw [hhome, listsOperator_take_six es hdigits hlength']
  · rw [← networkCode_append_eq_iff hlength more, ← listed_for_longer_iff hdigits hlength q.fqdn]
    simp only [hhome]
    exact ⟨fun hkept es => hkept es none, fun hkept es _ => hkept es⟩

/-- A SIM card by the first six digits of its number is recognised with all of them. -/
theorem first_six_digits_decide_whole :
    let q := Profile.new (.ofSim "a.example") 0 ⟨10, "shop"⟩ .saved .sim
    let es := Elements.ofList [.domainName ["wlan.mnc260.mcc310.3gppnetwork.org"]]
    q.config.sim = some { imsi := "123456*", eapType := .sim } ∧
    (∀ c ∈ ['3', '1', '0', '2', '6', '0'] ++ ['7', '7'], Char.isDigit c = true) ∧
    simVerdict (q.withImsi "310260*") es none = .home ∧
    simVerdict (q.withImsi "31026077") es none = .home := by
  intro q es
  have hsim : q.config.sim = some { imsi := "123456*", eapType := .sim } := rfl
  have hdigits : ∀ c ∈ ['3', '1', '0', '2', '6', '0'] ++ ['7', '7'], Char.isDigit c = true :=
    List.all_eq_true.1 (by decide)
  have hlisted : listsOperator es ['3', '1', '0', '2', '6', '0'] = true := by decide
  obtain ⟨hmasked, -, hwhole⟩ := first_six_digits_decide hsim hdigits (by decide)
  exact ⟨hsim, hdigits, hmasked es none hlisted,
    hwhole.2 (Or.inl (Or.inl (by decide))) es none hlisted⟩

/-- Five digits name an operator by a network code of two digits, which the whole number does
    not: 26201 is of 262 01, and 262011234567890 is taken for one of 262 011. -/
theorem five_digits_do_not_decide :
    ¬∀ (q : Profile) (sim : SimCredential) (number more : List Char) (es : Elements)
      (rc : Option RoamingConsortium), q.config.sim = some sim → 5 ≤ number.length →
      (∀ c ∈ number ++ more, Char.isDigit c = true) → listsOperator es number = true →
      simVerdict (q.withImsi (String.ofList (number ++ ['*']))) es rc = .home →
      simVerdict (q.withImsi (String.ofList (number ++ more))) es rc = .home := by
  intro h
  let q := Profile.new (.ofSim "a.example") 0 ⟨10, "shop"⟩ .saved .sim
  let es := Elements.ofList [.domainName ["wlan.mnc001.mcc262.3gppnetwork.org"]]
  have hdigits : ∀ c ∈ "26201".toList ++ "1234567890".toList, Char.isDigit c = true :=
    List.all_eq_true.1 (by decide)
  have hwhole := h q _ "26201".toList "1234567890".toList es none rfl (by decide) hdigits
    (by decide) (by decide)
  exact absurd hwhole (by decide)

end Profiles

end Hotspot
