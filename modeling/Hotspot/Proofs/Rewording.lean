/-
  Hotspot/Proofs/Rewording.lean
  =============================
  **How network data may change without changing the verdict, and how it may only improve it.**

  Rules look for an entry and stop at the first one, so an entry that is added can only add
  evidence, and the order of a list and the number of copies do not count.  Names count up to
  letter case.  Networks of mobile operators are numbers, and those are compared as they stand.

  What may be done to a list is told step by step (`Relisted`); of any number of steps no more
  counts than that each entry on either side has one on the other that means the same
  (`Relisted.covers`).
-/
import Hotspot.Proofs.Evidence
import Hotspot.Proofs.OrderedMap
import Hotspot.Proofs.Steps

namespace Hotspot

open Anqp (Element Elements Kind)

/-! ### Lists -/

/-- A list in another order, with copies of its entries or without copies that it has, or with
    other entries that mean the same. -/
inductive Relisted {α : Type} (same : α → α → Prop) : List α → List α → Prop
  | reordered {a b : List α} (h : a.Perm b) : Relisted same a b
  | repeated {a : List α} {x : α} (h : x ∈ a) : Relisted same a (x :: a)
  | reworded {a b : List α} (h : List.Forall₂ same a b) : Relisted same a b
  | undone {a b : List α} (h : Relisted same b a) : Relisted same a b
  | trans {a b c : List α} (hab : Relisted same a b) (hbc : Relisted same b c) : Relisted same a c

/-- Each entry of the one list has an entry of the other that means the same. -/
def Covers {α : Type} (same : α → α → Prop) (a b : List α) : Prop := ∀ x ∈ a, ∃ y ∈ b, same x y

namespace Covers

variable {α : Type} {same : α → α → Prop} {a b c : List α}

theorem of_subset (hrefl : ∀ x, same x x) (h : a ⊆ b) : Covers same a b :=
  fun x hx => ⟨x, h hx, hrefl x⟩

theorem of_forall₂ (h : List.Forall₂ same a b) : Covers same a b := by
  induction h with
  | nil => exact fun _ hx => nomatch hx
  | @cons x y a b hxy _ ih =>
    intro z hz
    rcases List.mem_cons.1 hz with rfl | hz
    · exact ⟨y, List.mem_cons_self, hxy⟩
    · obtain ⟨w, hw, hzw⟩ := ih z hz
      exact ⟨w, List.mem_cons_of_mem y hw, hzw⟩

theorem trans (htrans : ∀ x y z, same x y → same y z → same x z) (hab : Covers same a b)
    (hbc : Covers same b c) : Covers same a c := by
  intro x hx
  obtain ⟨y, hy, hxy⟩ := hab x hx
  obtain ⟨z, hz, hyz⟩ := hbc y hy
  exact ⟨z, hz, htrans x y z hxy hyz⟩

theorem subset (h : Covers Eq a b) : a ⊆ b := by
  intro x hx
  obtain ⟨y, hy, rfl⟩ := h x hx
  exact hy

end Covers

/-- Of the steps no more counts than what each entry means. -/
theorem Relisted.covers {α : Type} {same r : α → α → Prop} {a b : List α} (hr : Equivalence r)
    (hsame : ∀ x y, same x y → r x y) (h : Relisted same a b) : Covers r a b ∧ Covers r b a := by
  induction h with
  | reordered h => exact ⟨.of_subset hr.refl h.subset, .of_subset hr.refl h.symm.subset⟩
  | @repeated a x hx =>
    refine ⟨.of_subset hr.refl (List.subset_cons_self x a), .of_subset hr.refl ?_⟩
    exact List.cons_subset.2 ⟨hx, List.Subset.refl a⟩
  | reworded h =>
    -- `same` need not go both ways, but what it stands for does
    have hmeans := h.imp hsame
    have hback := hmeans.flip.imp fun x y => hr.symm
    exact ⟨.of_forall₂ hmeans, .of_forall₂ hback⟩
  | undone _ ih => exact ih.symm
  | trans _ _ ihab ihbc =>
    have htrans : ∀ x y z, r x y → r y z → r x z := fun _ _ _ => hr.trans
    exact ⟨ihab.1.trans htrans ihbc.1, ihbc.2.trans htrans ihab.2⟩

theorem Relisted.subset {α : Type} {a b : List α} (h : Relisted Eq a b) : a ⊆ b :=
  Covers.subset (h.covers eq_equivalence fun _ _ => id).1

/-- Each name of the one list is in the other, up to letter case. -/
abbrev CoversNames : List String → List String → Prop := Covers fun a b => sameName a b = true

theorem Relisted.coversNames {a b : List String} (h : Relisted Recased a b) : CoversNames a b :=
  (h.covers sameName_equivalence fun _ _ => Recased.sameName).1

variable {p p' : Profile} {es es' : Elements} {rc rc' : Option RoamingConsortium}

/-! ### Profiles and networks that cover others -/

/-- All that rules compare of a profile is in another one too. -/
structure Profile.CoveredBy (p p' : Profile) : Prop where
  fqdn : sameName p.fqdn p'.fqdn = true
  number : p'.subscriberNumber = p.subscriberNumber
  ois : ∀ sp, p.config.homeSp = some sp →
    ∃ sp', p'.config.homeSp = some sp' ∧ sp.ois ⊆ sp'.ois
  realm : ∀ c, p.config.credential = some c →
    ∃ c', p'.config.credential = some c' ∧ sameName c.realm c'.realm = true

theorem Profile.CoveredBy.refl (p : Profile) : p.CoveredBy p where
  fqdn := sameName_refl p.fqdn
  number := rfl
  ois sp hsp := ⟨sp, hsp, List.Subset.refl sp.ois⟩
  realm c hc := ⟨c, hc, sameName_refl c.realm⟩

/-- All that rules look for in a network is in another one too. -/
structure NetworkCoveredBy (es es' : Elements) (rc rc' : Option RoamingConsortium) : Prop where
  domains : CoversNames (es.names .domainName) (es'.names .domainName)
  realms : CoversNames (es.names .naiRealm) (es'.names .naiRealm)
  plmns : es.names .threeGppNetwork ⊆ es'.names .threeGppNetwork
  ois : es.ois ⊆ es'.ois
  beacon : beaconOis rc ⊆ beaconOis rc'

namespace NetworkCoveredBy

theorem listsDomain (h : NetworkCoveredBy es es' rc rc') {domain domain' : String}
    (hname : sameName domain domain' = true) (hlists : listsDomain es domain = true) :
    listsDomain es' domain' = true := by
  obtain ⟨hdomain, d, hd, hsame⟩ := listsDomain_iff.1 hlists
  obtain ⟨d', hd', hsame'⟩ := h.domains d hd
  refine listsDomain_iff.2 ⟨fun hempty => hdomain ?_, d', hd', ?_⟩
  · exact (eq_empty_iff_of_sameName hname).2 hempty
  · exact sameName_trans (sameName_symm hsame') (sameName_trans hsame hname)

/-- Evidence is upheld where all that counts is covered. -/
theorem upholds (h : NetworkCoveredBy es es' rc rc') (hp : p.CoveredBy p') :
    Upholds p p' es es' rc rc' where
  domain := h.listsDomain hp.fqdn
  operator hlists := by
    obtain ⟨domain, hdomain, hlists⟩ := listsOperator_iff.1 hlists
    rw [← hp.number] at hdomain
    exact listsOperator_iff.2 ⟨domain, hdomain, h.listsDomain (sameName_refl domain) hlists⟩
  oi hlists := by
    obtain ⟨sp, hsp, oi, hoi, hlisted⟩ := listsOi_iff.1 hlists
    obtain ⟨sp', hsp', hois⟩ := hp.ois sp hsp
    refine listsOi_iff.2 ⟨sp', hsp', oi, hois hoi, ?_⟩
    exact hlisted.imp (fun hmem => h.ois hmem) (fun hmem => h.beacon hmem)
  realm hlists := by
    obtain ⟨c, hc, realm, hrealm, hsame⟩ := listsRealm_iff.1 hlists
    obtain ⟨c', hc', hname⟩ := hp.realm c hc
    obtain ⟨realm', hrealm', hsame'⟩ := h.realms realm hrealm
    refine listsRealm_iff.2 ⟨c', hc', realm', hrealm', ?_⟩
    exact sameName_trans (sameName_symm hsame') (sameName_trans hsame hname)
  plmn hlists := by
    obtain ⟨hnumber, plmn, hplmn, hprefix⟩ := listsPlmn_iff.1 hlists
    rw [hp.number]
    exact listsPlmn_iff.2 ⟨hnumber, plmn, h.plmns hplmn, hprefix⟩

end NetworkCoveredBy

/-! ### Additions -/

/-- An element with entries added. -/
structure Anqp.Element.Within (e e' : Element) : Prop where
  kind : e'.kind = e.kind
  names : e.names ⊆ e'.names
  ois : e.ois ⊆ e'.ois

/-- Elements with entries added to some of them, and with elements of further kinds. -/
def Anqp.Elements.Extends (es' es : Elements) : Prop :=
  ∀ k e, es.get? k = some e → ∃ e', es'.get? k = some e' ∧ e.Within e'

namespace Anqp.Elements

theorem Extends.names_subset (h : es'.Extends es) (k : Kind) : es.names k ⊆ es'.names k := by
  unfold names
  cases he : es.get? k with
  | none => exact List.nil_subset _
  | some e =>
    obtain ⟨e', he', hwithin⟩ := h k e he
    rw [he']
    exact hwithin.names

theorem Extends.ois_subset (h : es'.Extends es) : es.ois ⊆ es'.ois := by
  unfold ois
  cases he : es.get? .roamingConsortium with
  | none => exact List.nil_subset _
  | some e =>
    obtain ⟨e', he', hwithin⟩ := h _ e he
    rw [he']
    exact hwithin.ois

theorem Extends.covers (h : es'.Extends es) (hbeacon : beaconOis rc ⊆ beaconOis rc') :
    NetworkCoveredBy es es' rc rc' where
  domains := .of_subset sameName_refl (h.names_subset .domainName)
  realms := .of_subset sameName_refl (h.names_subset .naiRealm)
  plmns := h.names_subset .threeGppNetwork
  ois := h.ois_subset
  beacon := hbeacon

end Anqp.Elements

/-! ### Rewordings -/

/-- When entries of a list of names mean the same: domains and realms up to letter case. -/
def Anqp.Kind.SameEntry : Kind → String → String → Prop
  | .domainName => Recased
  | .naiRealm => Recased
  | _ => Eq

/-- An element with its list told in another way. -/
structure Anqp.Element.Reworded (e e' : Element) : Prop where
  kind : e'.kind = e.kind
  names : Relisted e.kind.SameEntry e.names e'.names
  ois : Relisted Eq e.ois e'.ois

def Anqp.Elements.Reworded (es es' : Elements) : Prop :=
  ∀ k, Option.Rel Element.Reworded (es.get? k) (es'.get? k)

/-- A profile whose names are in another letter case and whose identifiers are told in another
    way. -/
structure Profile.Reworded (p p' : Profile) : Prop where
  provider : Option.Rel (fun sp sp' => Recased sp.fqdn sp'.fqdn ∧ Relisted Eq sp.ois sp'.ois)
    p.config.homeSp p'.config.homeSp
  credential : Option.Rel (fun c c' => Recased c.realm c'.realm ∧ c'.sim = c.sim)
    p.config.credential p'.config.credential

theorem rel_cases {α : Type} {r : α → α → Prop} {a b : Option α} (h : Option.Rel r a b) :
    (a = none ∧ b = none) ∨ ∃ x y, a = some x ∧ b = some y ∧ r x y := by
  cases h with
  | none => exact Or.inl ⟨rfl, rfl⟩
  | @some x y h => exact Or.inr ⟨x, y, rfl, rfl, h⟩

theorem rel_symm {α : Type} {r : α → α → Prop} (hr : ∀ x y, r x y → r y x) {a b : Option α}
    (h : Option.Rel r a b) : Option.Rel r b a := by
  cases h with
  | none => exact .none
  | some h => exact .some (hr _ _ h)

namespace Profile.Reworded

theorem symm (h : p.Reworded p') : p'.Reworded p where
  provider := rel_symm (fun _ _ h => ⟨h.1.symm, h.2.undone⟩) h.provider
  credential := rel_symm (fun _ _ h => ⟨h.1.symm, h.2.symm⟩) h.credential

theorem coveredBy (h : p.Reworded p') : p.CoveredBy p' where
  fqdn := by
    unfold Profile.fqdn ProfileConfig.fqdn
    rcases rel_cases h.provider with ⟨hsp, hsp'⟩ | ⟨sp, sp', hsp, hsp', hfqdn, -⟩
    · rw [hsp, hsp']
      exact sameName_refl _
    · rw [hsp, hsp']
      exact hfqdn.sameName
  number := by
    unfold Profile.subscriberNumber ProfileConfig.sim
    rcases rel_cases h.credential with ⟨hc, hc'⟩ | ⟨c, c', hc, hc', -, hsim⟩
    · rw [hc, hc']
    · rw [hc, hc', Option.bind_some, Option.bind_some, hsim]
  ois sp hsp := by
    rcases rel_cases h.provider with ⟨hnone, -⟩ | ⟨sp₁, sp', hsp₁, hsp', -, hois⟩
    · rw [hnone] at hsp
      cases hsp
    · obtain rfl := Option.some.inj (hsp.symm.trans hsp₁)
      exact ⟨sp', hsp', hois.subset⟩
  realm c hc := by
    rcases rel_cases h.credential with ⟨hnone, -⟩ | ⟨c₁, c', hc₁, hc', hrealm, -⟩
    · rw [hnone] at hc
      cases hc
    · obtain rfl := Option.some.inj (hc.symm.trans hc₁)
      exact ⟨c', hc', hrealm.sameName⟩

end Profile.Reworded

namespace Anqp

/-- In a collection of answers every element is under its own kind. -/
theorem kind_of_get?_ofList {l : List Element} {k : Kind} {e : Element}
    (h : (Elements.ofList l).get? k = some e) : e.kind = k := by
  have hmem := OrderedMap.mem_of_get?_ofList h
  obtain ⟨e', -, heq⟩ := List.mem_map.1 hmem
  cases heq
  rfl

namespace Elements.Reworded

variable {l : List Element}

theorem names (h : (ofList l).Reworded es') (k : Kind) :
    Relisted k.SameEntry ((ofList l).names k) (es'.names k) := by
  unfold Elements.names
  rcases rel_cases (h k) with ⟨he, he'⟩ | ⟨e, e', he, he', hreworded⟩
  · rw [he, he']
    exact .reordered (List.Perm.refl [])
  · rw [he, he', ← kind_of_get?_ofList he]
    exact hreworded.names

theorem ois (h : es.Reworded es') : Relisted Eq es.ois es'.ois := by
  unfold Elements.ois
  rcases rel_cases (h .roamingConsortium) with ⟨he, he'⟩ | ⟨e, e', he, he', hreworded⟩
  · rw [he, he']
    exact .reordered (List.Perm.refl [])
  · rw [he, he']
    exact hreworded.ois

end Elements.Reworded

end Anqp

/-- Of lists told in another way the same counts. -/
theorem NetworkCoveredBy.of_relisted
    (hnames : ∀ k, Relisted (Kind.SameEntry k) (es.names k) (es'.names k))
    (hois : Relisted Eq es.ois es'.ois) (hbeacon : Relisted Eq (beaconOis rc) (beaconOis rc')) :
    NetworkCoveredBy es es' rc rc' where
  domains := (hnames .domainName).coversNames
  realms := (hnames .naiRealm).coversNames
  plmns := (hnames .threeGppNetwork).subset
  ois := hois.subset
  beacon := hbeacon.subset

/-! ### The laws -/

/-- **How verdicts move with the data.**  Entries that are added anywhere never lower a verdict.
    Telling the lists and the names of the network or of the profile in another way does not
    change it.  A SIM card is at least as welcome as any other credential, and no more without a
    number. -/
theorem verdicts_grow_and_ignore_wording :
    (∀ type p (es es' : Elements) rc rc', es'.Extends es → beaconOis rc ⊆ beaconOis rc' →
      Matchers.default type p es rc ≤ Matchers.default type p es' rc') ∧
    (∀ type (p p' : Profile) (l : List Element) (es' : Elements) rc rc',
      (Elements.ofList l).Reworded es' → p.Reworded p' →
      Relisted Eq (beaconOis rc) (beaconOis rc') →
      Matchers.default type p' es' rc' = Matchers.default type p (.ofList l) rc) ∧
    (∀ (p : Profile) (es : Elements) rc, realmVerdict p es rc ≤ simVerdict p es rc ∧
      (p.config.sim = none ∨ p.subscriberNumber = [] →
        simVerdict p es rc = realmVerdict p es rc)) := by
  refine ⟨?_, ?_, ?_⟩
  · intro type p es es' rc rc' hextends hbeacon
    exact ((hextends.covers hbeacon).upholds (.refl p)).le type
  · intro type p p' l es' rc rc' hes hp hbeacon
    have hforth : NetworkCoveredBy (.ofList l) es' rc rc' :=
      .of_relisted hes.names hes.ois hbeacon
    have hback : NetworkCoveredBy es' (.ofList l) rc' rc :=
      .of_relisted (fun k => (hes.names k).undone) hes.ois.undone hbeacon.undone
    -- what is reworded can be worded back, so neither verdict is above the other
    apply le_antisymm
    · exact (hback.upholds hp.symm.coveredBy).le type
    · exact (hforth.upholds hp.coveredBy).le type
  · intro p es rc
    refine ⟨realmVerdict_le_simVerdict, fun hnumber => simVerdict_of_no_number ?_⟩
    rcases hnumber with hsim | hnumber
    · rw [Profile.subscriberNumber, hsim]
    · exact hnumber

/-- A verdict that rises with an entry that is added, and one that outlasts another wording. -/
theorem verdicts_grow_and_ignore_wording_home :
    let p := Profile.new (.ofSim "a.example") 0 ⟨10, "shop"⟩ .saved .sim
    let q := Profile.new (.ofSim "A.example") 0 ⟨10, "shop"⟩ .saved .sim
    let network : List Element := [.domainName ["b.example"], .threeGppNetwork ["310410"]]
    let more : List Element := [.domainName ["b.example"], .threeGppNetwork ["123456", "310410"]]
    let bare := { p with config := .empty }
    let home : List Element := [.domainName ["b.example", "a.example"]]
    let shouted : List Element := [.domainName ["A.EXAMPLE", "b.example", "A.EXAMPLE"]]
    (Elements.ofList more).Extends (.ofList network) ∧
    Matchers.default .sim p (.ofList network) none = .none ∧
    Matchers.default .sim p (.ofList network) none ≤ Matchers.default .sim p (.ofList more) none ∧
    (Elements.ofList home).Reworded (.ofList shouted) ∧ p.Reworded q ∧
    Matchers.default .sim p (.ofList home) none = .home ∧
    Matchers.default .sim q (.ofList shouted) none = Matchers.default .sim p (.ofList home) none ∧
    realmVerdict p (.ofList more) none ≤ simVerdict p (.ofList more) none ∧
    bare.config.sim = none ∧
    simVerdict bare (.ofList more) none = realmVerdict bare (.ofList more) none := by
  intro p q network more bare home shouted
  obtain ⟨hgrow, hword, hsim⟩ := verdicts_grow_and_ignore_wording
  have hmore : (Elements.ofList more).Extends (.ofList network) := by
    intro k e he
    cases k <;> cases he
    · exact ⟨.threeGppNetwork ["123456", "310410"], rfl, rfl, by decide, by decide⟩
    · exact ⟨.domainName ["b.example"], rfl, rfl, by decide, by decide⟩
  have hshouted : (Elements.ofList home).Reworded (.ofList shouted) := by
    have hnames : Relisted Recased ["b.example", "a.example"]
        ["A.EXAMPLE", "b.example", "A.EXAMPLE"] := by
      have hcase : List.Forall₂ Recased ["b.example", "a.example"] ["b.example", "A.EXAMPLE"] := by
        unfold Recased
        decide
      exact .trans (.reworded hcase) (.repeated (by decide))
    intro k
    cases k with
    | domainName => exact .some ⟨rfl, hnames, .reordered (List.Perm.refl [])⟩
    | _ => exact .none
  have hq : p.Reworded q := by
    have hfqdn : Recased "a.example" "A.example" := by
      unfold Recased
      decide
    have hrealm : Recased "realm" "realm" := by
      unfold Recased
      decide
    exact ⟨.some ⟨hfqdn, .reordered (List.Perm.refl [])⟩, .some ⟨hrealm, rfl⟩⟩
  exact ⟨hmore, by decide, hgrow _ _ _ _ _ _ hmore (List.Subset.refl _), hshouted, hq, by decide,
    hword _ _ _ _ _ _ _ hshouted hq (.reordered (List.Perm.refl _)), (hsim _ _ _).1, rfl,
    (hsim _ _ _).2 (Or.inl rfl)⟩

end Hotspot
