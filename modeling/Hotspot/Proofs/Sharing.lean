/-
  Hotspot/Proofs/Sharing.lean
  ===========================
  **Which access points share their metadata.**

  What an access point answers is remembered under a key.  There are three levels of keys: that of
  a homogeneous extended service set, that of a domain within one network name, and that of a
  single radio.  A key tells its level, and of the advertised identity what counts on the level
  (`build_eq_build_iff`), so keys of two levels are never equal and metadata reach no one else.

  The domain that counts is the one the scan itself read (`EffectiveDomain`), else the one in the
  first indication of the beacon, laid out as `Indication.Layout` says, else zero.  Without a
  domain of the scan's own, a first indication that is cut off leaves the access point without a
  key.
-/
import Hotspot.Radio.AccessPoint
import Hotspot.Proofs.AddressText
import Hotspot.Proofs.CacheHistory
import Hotspot.Proofs.Indications

namespace Hotspot

/-! ### Keys -/

namespace IdentityKey

variable {ssid ssid' : String} {bssid bssid' : MacAddress} {hessid hessid' : UInt64}
  {domainId domainId' : UInt16}

theorem hessid_build : (build ssid bssid hessid domainId).hessid = hessid := by
  by_cases hset : hessid = 0 <;> by_cases hdomain : domainId = 0 <;> simp [build, hset, hdomain]

theorem domainId_build : (build ssid bssid hessid domainId).domainId = domainId := by
  by_cases hset : hessid = 0 <;> by_cases hdomain : domainId = 0 <;> simp [build, hset, hdomain]

theorem ssid_build (hset : hessid = 0) :
    (build ssid bssid hessid domainId).ssid = some ssid := by
  by_cases hdomain : domainId = 0 <;> simp [build, hset, hdomain]

theorem bssid_build (hset : hessid = 0) (hdomain : domainId = 0) :
    (build ssid bssid hessid domainId).bssid = bssid.value := by
  simp [build, hset, hdomain]

/-- A key tells the HESSID and the domain, without a HESSID the network name too, and with neither
    the radio. -/
theorem build_eq_build_iff :
    build ssid bssid hessid domainId = build ssid' bssid' hessid' domainId' ↔
      hessid = hessid' ∧ domainId = domainId' ∧
        (hessid = 0 → ssid = ssid' ∧ (domainId = 0 → bssid = bssid')) := by
  constructor
  · intro h
    have hhessid := congrArg IdentityKey.hessid h
    have hdomain := congrArg IdentityKey.domainId h
    rw [hessid_build, hessid_build] at hhessid
    rw [domainId_build, domainId_build] at hdomain
    refine ⟨hhessid, hdomain, fun hset => ⟨?_, fun hnone => ?_⟩⟩
    · have hssid := congrArg IdentityKey.ssid h
      rw [ssid_build hset, ssid_build (hhessid ▸ hset)] at hssid
      exact Option.some.inj hssid
    · have hbssid := congrArg IdentityKey.bssid h
      rw [bssid_build hset hnone, bssid_build (hhessid ▸ hset) (hdomain ▸ hnone)] at hbssid
      exact MacAddress.mk.injEq .. ▸ hbssid
  · rintro ⟨rfl, rfl, hrest⟩
    by_cases hset : hessid = 0
    · obtain ⟨rfl, hradio⟩ := hrest hset
      by_cases hnone : domainId = 0
      · rw [hradio hnone]
      · simp [build, hset, hnone]
    · simp [build, hset]

end IdentityKey

namespace AccessPoint

/-- The domain that an access point is in, as far as the scan and the beacon tell. -/
inductive EffectiveDomain (ap : AccessPoint) : UInt16 → Prop
  | recorded {d : UInt16} (hrecord : ap.domainId = some d) : EffectiveDomain ap d
  | indicated {e : InformationElement} {i : Indication} {d : UInt16}
      (hrecord : ap.domainId = none)
      (hfirst : ap.elements.find? Indication.isIndication = some e)
      (hlayout : Indication.Layout e.data i) (hdomain : i.domainId = some d) :
      EffectiveDomain ap d
  | unindicated {e : InformationElement} {i : Indication}
      (hrecord : ap.domainId = none)
      (hfirst : ap.elements.find? Indication.isIndication = some e)
      (hlayout : Indication.Layout e.data i) (hdomain : i.domainId = none) :
      EffectiveDomain ap 0
  | absent (hrecord : ap.domainId = none)
      (hfirst : ap.elements.find? Indication.isIndication = none) : EffectiveDomain ap 0

/-- The level on which two access points share their metadata. -/
inductive Shares (a b : AccessPoint) : Prop
  | hessid {d : UInt16} (hset : a.hessid ≠ 0) (hsame : b.hessid = a.hessid)
      (ha : a.EffectiveDomain d) (hb : b.EffectiveDomain d)
  | domain {d : UInt16} (ha₀ : a.hessid = 0) (hb₀ : b.hessid = 0) (hd : d ≠ 0)
      (ha : a.EffectiveDomain d) (hb : b.EffectiveDomain d) (hssid : a.ssid = b.ssid)
  | radio {bssid : MacAddress} (ha₀ : a.hessid = 0) (hb₀ : b.hessid = 0)
      (ha : a.EffectiveDomain 0) (hb : b.EffectiveDomain 0) (hssid : a.ssid = b.ssid)
      (habssid : a.address? = some bssid) (hbbssid : b.address? = some bssid)

variable {ap a b : AccessPoint} {target t u : QueryTarget} {d : UInt16}

/-! ### Derivation -/

theorem queryTarget?_eq_some_iff : ap.queryTarget? = some target ↔
    ap.passpoint = true ∧ ap.address? = some target.bssid ∧
      ∃ indication, ap.usableIndication? = some indication ∧
        target.release = indication.map (·.release) ∧
        target.key = .build ap.ssid target.bssid ap.hessid
          ((ap.domainId <|> indication.bind (·.domainId)).getD 0) := by
  unfold queryTarget?
  cases hpasspoint : ap.passpoint with
  | false => simp
  | true =>
    simp only [Bool.not_true, Bool.false_eq_true, if_false, true_and]
    constructor
    · intro h
      obtain ⟨bssid, hbssid, h⟩ := Option.bind_eq_some_iff.1 h
      obtain ⟨indication, hindication, h⟩ := Option.bind_eq_some_iff.1 h
      cases h
      exact ⟨hbssid, indication, hindication, rfl, rfl⟩
    · rintro ⟨hbssid, indication, hindication, hrelease, hkey⟩
      obtain ⟨bssid, key, release⟩ := target
      simp only at hbssid hrelease hkey
      rw [hbssid, hindication, hrelease, hkey]
      rfl

theorem address?_eq_some_iff {bssid : MacAddress} : ap.address? = some bssid ↔
    ∃ text, ap.bssid = some text ∧ MacAddress.ofText? text = .ok bssid := by
  unfold address?
  cases ap.bssid with
  | none => simp
  | some text => cases htext : MacAddress.ofText? text <;> simp [Except.toOption, htext]

theorem indication_of_none (hfirst : ap.elements.find? Indication.isIndication = none) :
    ap.indication = .ok none := by
  rw [indication, Indication.find, hfirst]

theorem indication_of_some {e : InformationElement}
    (hfirst : ap.elements.find? Indication.isIndication = some e) :
    ap.indication = (Indication.read e.data).map some := by
  rw [indication, Indication.find, hfirst]

/-- An access point is usable unless its first indication is cut off and the scan gives no domain
    itself. -/
theorem exists_usableIndication?_iff : (∃ indication, ap.usableIndication? = some indication) ↔
    (∀ e, ap.elements.find? Indication.isIndication = some e →
      ∃ i, Indication.Layout e.data i) ∨ ∃ d, ap.domainId = some d := by
  unfold usableIndication?
  cases hfirst : ap.elements.find? Indication.isIndication with
  | none => simp [indication_of_none hfirst]
  | some e =>
    simp only [← Indication.read_eq_ok_iff, Option.some.injEq, forall_eq']
    rw [indication_of_some hfirst]
    cases Indication.read e.data with
    | ok i => simp [Except.map]
    | error e => cases ap.domainId <;> simp [Except.map]

/-- The domain in the key is the one that counts. -/
theorem effectiveDomain_iff {indication : Option Indication}
    (h : ap.usableIndication? = some indication) :
    ap.EffectiveDomain d ↔ (ap.domainId <|> indication.bind (·.domainId)).getD 0 = d := by
  cases hrecord : ap.domainId with
  | some d' =>
    constructor
    · intro hd
      cases hd <;> simp_all
    · rintro rfl
      exact .recorded hrecord
  | none =>
    cases hfirst : ap.elements.find? Indication.isIndication with
    | none =>
      rw [usableIndication?, indication_of_none hfirst] at h
      cases h
      constructor
      · intro hd
        cases hd <;> simp_all
      · rintro rfl
        exact .absent hrecord hfirst
    | some e =>
      rw [usableIndication?, indication_of_some hfirst] at h
      cases hread : Indication.read e.data with
      | error e => simp [hread, hrecord, Except.map] at h
      | ok i =>
        rw [hread] at h
        cases h
        have hlayout := Indication.read_eq_ok_iff.1 hread
        -- the data say one thing only
        have hunique : ∀ {e' i'}, ap.elements.find? Indication.isIndication = some e' →
            Indication.Layout e'.data i' → i = i' := by
          intro e' i' hfirst' hlayout'
          obtain rfl := Option.some.inj (hfirst.symm.trans hfirst')
          exact Except.ok.inj (hread.symm.trans (Indication.read_eq_ok_iff.2 hlayout'))
        show _ ↔ i.domainId.getD 0 = d
        constructor
        · intro hd
          cases hd with
          | recorded hrecord' => simp [hrecord] at hrecord'
          | absent _ hfirst' => simp [hfirst] at hfirst'
          | indicated _ hfirst' hlayout' hdomain => rw [hunique hfirst' hlayout', hdomain]; rfl
          | unindicated _ hfirst' hlayout' hdomain => rw [hunique hfirst' hlayout', hdomain]; rfl
        · rintro rfl
          cases hdomain : i.domainId with
          | none => exact .unindicated hrecord hfirst hlayout hdomain
          | some d => exact .indicated hrecord hfirst hlayout hdomain

theorem effectiveDomain_iff_of_queryTarget? (h : ap.queryTarget? = some target) :
    ap.EffectiveDomain d ↔ target.key.domainId = d := by
  obtain ⟨-, -, indication, husable, -, hkey⟩ := queryTarget?_eq_some_iff.1 h
  rw [effectiveDomain_iff husable, hkey, IdentityKey.domainId_build]

/-! ### Sharing -/

theorem key_eq_of_queryTarget? (h : ap.queryTarget? = some target) : target.key =
    .build ap.ssid target.bssid ap.hessid target.key.domainId := by
  obtain ⟨-, -, indication, -, -, hkey⟩ := queryTarget?_eq_some_iff.1 h
  rw [hkey, IdentityKey.domainId_build]

theorem key_eq_iff_shares (ht : a.queryTarget? = some t) (hu : b.queryTarget? = some u) :
    t.key = u.key ↔ a.Shares b := by
  have ha {d} := effectiveDomain_iff_of_queryTarget? ht (d := d)
  have hb {d} := effectiveDomain_iff_of_queryTarget? hu (d := d)
  obtain ⟨-, habssid, -⟩ := queryTarget?_eq_some_iff.1 ht
  obtain ⟨-, hbbssid, -⟩ := queryTarget?_eq_some_iff.1 hu
  rw [key_eq_of_queryTarget? ht, key_eq_of_queryTarget? hu, IdentityKey.build_eq_build_iff]
  constructor
  · rintro ⟨hhessid, hdomain, hrest⟩
    -- the levels are those of the key
    by_cases hset : a.hessid = 0
    · obtain ⟨hssid, hradio⟩ := hrest hset
      by_cases hd : t.key.domainId = 0
      · exact .radio hset (hhessid ▸ hset) (ha.2 hd) (hb.2 (hdomain ▸ hd)) hssid habssid
          (hradio hd ▸ hbbssid)
      · exact .domain hset (hhessid ▸ hset) hd (ha.2 rfl) (hb.2 hdomain.symm) hssid
    · exact .hessid hset hhessid.symm (ha.2 rfl) (hb.2 hdomain.symm)
  · intro h
    cases h with
    | hessid hset hsame hda hdb =>
      exact ⟨hsame.symm, (ha.1 hda).trans (hb.1 hdb).symm, fun hset' => absurd hset' hset⟩
    | domain ha₀ hb₀ hd hda hdb hssid =>
      refine ⟨ha₀.trans hb₀.symm, (ha.1 hda).trans (hb.1 hdb).symm, fun _ => ⟨hssid, fun hd' => ?_⟩⟩
      exact absurd ((ha.1 hda).symm.trans hd') hd
    | radio ha₀ hb₀ hda hdb hssid habssid' hbbssid' =>
      refine ⟨ha₀.trans hb₀.symm, (ha.1 hda).trans (hb.1 hdb).symm, fun _ => ⟨hssid, fun _ => ?_⟩⟩
      rw [habssid'] at habssid
      rw [hbbssid'] at hbbssid
      exact Option.some.inj (habssid.symm.trans hbbssid)

end AccessPoint

/-- **Who has a key, and who shares the metadata under it.**  An access point has a key just if it
    is marked, its radio address can be read, and the first indication of its beacon can be read or
    is not needed.  The key is in the domain that counts.  What is stored for one access point is
    found for another just if they share it on one of the three levels, and leaves what is there
    for the others alone.  The texts of one address are the same but for letter case. -/
theorem metadata_is_shared_by_level :
    (∀ ap : AccessPoint, (∃ target, ap.queryTarget? = some target) ↔
      ap.passpoint = true ∧
        (∃ text bssid, ap.bssid = some text ∧ MacAddress.ofText? text = .ok bssid) ∧
        ((∀ e, ap.elements.find? Indication.isIndication = some e →
          ∃ i, Indication.Layout e.data i) ∨ ∃ d, ap.domainId = some d)) ∧
    (∀ (ap : AccessPoint) (target : QueryTarget), ap.queryTarget? = some target →
      ∀ d, ap.EffectiveDomain d ↔ target.key.domainId = d) ∧
    (∀ (a b : AccessPoint) (t u : QueryTarget),
      a.queryTarget? = some t → b.queryTarget? = some u →
      (t.key = u.key ↔ a.Shares b) ∧
      ∀ (c : MetadataCache) (now : Millis) (es : Anqp.Elements),
        (a.Shares b → (c.store now t.key es).get? u.key =
          some { capturedAt := now, elements := es }) ∧
        (¬a.Shares b → (c.store now t.key es).get? u.key = c.get? u.key)) ∧
    (∀ text text' bssid, MacAddress.ofText? text = .ok bssid →
      (MacAddress.ofText? text' = .ok bssid ↔ sameName text text' = true)) := by
  refine ⟨?_, ?_, ?_, ?_⟩
  · intro ap
    rw [← AccessPoint.exists_usableIndication?_iff]
    constructor
    · rintro ⟨target, htarget⟩
      obtain ⟨hpasspoint, hbssid, indication, husable, -⟩ :=
        AccessPoint.queryTarget?_eq_some_iff.1 htarget
      obtain ⟨text, htext, hread⟩ := AccessPoint.address?_eq_some_iff.1 hbssid
      exact ⟨hpasspoint, ⟨text, target.bssid, htext, hread⟩, indication, husable⟩
    · rintro ⟨hpasspoint, ⟨text, bssid, htext, hread⟩, indication, husable⟩
      have hbssid := AccessPoint.address?_eq_some_iff.2 ⟨text, htext, hread⟩
      let target : QueryTarget :=
        { bssid
          key := .build ap.ssid bssid ap.hessid
            ((ap.domainId <|> indication.bind (·.domainId)).getD 0)
          release := indication.map (·.release) }
      exact ⟨target, AccessPoint.queryTarget?_eq_some_iff.2
        ⟨hpasspoint, hbssid, indication, husable, rfl, rfl⟩⟩
  · intro ap target htarget d
    exact AccessPoint.effectiveDomain_iff_of_queryTarget? htarget
  · intro a b t u ht hu
    have hkey := AccessPoint.key_eq_iff_shares ht hu
    refine ⟨hkey, fun c now es => ⟨fun hshares => ?_, fun hnot => ?_⟩⟩
    · rw [← hkey.2 hshares]
      exact MetadataCache.get?_store
    · exact OrderedMap.get?_insert_of_ne _ _ fun h => hnot (hkey.1 h.symm)
  · intro text text' bssid htext
    exact MacAddress.ofText?_eq_iff_sameName htext

/-- Two access points of one network in domain 5, which the one tells by its beacon.  The beacon
    of the other is cut off, so the scan has to tell; otherwise it has no key. -/
theorem metadata_is_shared_by_level_cut_off :
    let cut : InformationElement := ⟨221, [0x50, 0x6F, 0x9A, 0x10, 0x04, 0x05]⟩
    let whole : InformationElement := ⟨221, [0x50, 0x6F, 0x9A, 0x10, 0x14, 0x05, 0x00]⟩
    let unusable := { AccessPoint.ofNames "plaza" "02:00:00:00:00:0A" with elements := [cut] }
    let a := { unusable with domainId := some 5 }
    let b := { AccessPoint.ofNames "plaza" "02:00:00:00:00:0b" with elements := [whole] }
    let key : IdentityKey := ⟨some "plaza", 0, 0, 5⟩
    (¬∃ target, unusable.queryTarget? = some target) ∧
    a.queryTarget? = some ⟨⟨0x02000000000A⟩, key, none⟩ ∧
    b.queryTarget? = some ⟨⟨0x02000000000B⟩, key, some .r2⟩ ∧
    a.EffectiveDomain 5 ∧ b.EffectiveDomain 5 ∧ a.Shares b ∧
    MacAddress.ofText? "02:00:00:00:00:0a" = .ok ⟨0x02000000000A⟩ := by
  intro cut whole unusable a b key
  obtain ⟨hderived, hdomain, hshares, hcase⟩ := metadata_is_shared_by_level
  have ha : a.queryTarget? = some ⟨⟨0x02000000000A⟩, key, none⟩ := by decide
  have hb : b.queryTarget? = some ⟨⟨0x02000000000B⟩, key, some .r2⟩ := by decide
  have hread : MacAddress.ofText? "02:00:00:00:00:0A" = .ok ⟨0x02000000000A⟩ := by decide
  refine ⟨?_, ha, hb, (hdomain a _ ha 5).2 rfl, (hdomain b _ hb 5).2 rfl, ?_, ?_⟩
  · rw [hderived]
    rintro ⟨-, -, hlayout | ⟨d, hd⟩⟩
    · obtain ⟨i, hi⟩ := hlayout cut (by decide)
      have hcut : Indication.read cut.data = .error ⟨2, 1⟩ := rfl
      rw [Indication.read_eq_ok_iff.2 hi] at hcut
      cases hcut
    · cases hd
  · exact (hshares a b _ _ ha hb).1.1 rfl
  · exact (hcase _ _ _ hread).2 (by decide)

end Hotspot
