/-
  Hotspot/Proofs/AddressText.lean
  ===============================
  **Which texts write a radio address.**

  Every address has a text of its own, in lower case.  Characters are read as the address just if
  they are those of this text but for letter case (`ofChars?_eq_ok_iff`), so two texts write one
  address just if they are the same but for letter case (`ofText?_eq_iff_sameName`).
-/
import Mathlib.Algebra.Group.Nat.Defs
import Hotspot.Radio.MacAddress
import Hotspot.Proofs.LetterCase
import Hotspot.Proofs.Outcomes
import Hotspot.Proofs.Pieces

namespace Hotspot

/-! ### Digits -/

namespace Hex

theorem digitValue?_of_not_ascii {c : Char} (hc : ¬c.toNat < 128) : digitValue? c = none := by
  have above : ∀ d : Char, d.toNat < 128 → ¬c ≤ d := by
    intro d hd hle
    have hcd : c.toNat ≤ d.toNat := hle
    omega
  rw [digitValue?, if_neg fun h => above '9' (by decide) h.2,
    if_neg fun h => above 'f' (by decide) h.2, if_neg fun h => above 'F' (by decide) h.2]

theorem digitValue?_eq_some {c : Char} {d : Nat} (h : digitValue? c = some d) :
    d < 16 ∧ c.toLower = Nat.digitChar d := by
  by_cases hc : c.toNat < 128
  · have hall := Text.forall_ascii
      (P := fun c => ∀ d ∈ digitValue? c, d < 16 ∧ c.toLower = Nat.digitChar d) (by decide) hc
    exact hall d h
  · rw [digitValue?_of_not_ascii hc] at h
    cases h

theorem digitValue?_toLower (c : Char) : digitValue? c.toLower = digitValue? c := by
  by_cases hc : c.toNat < 128
  · exact Text.forall_ascii (P := fun c => digitValue? c.toLower = digitValue? c) (by decide) hc
  · rw [Text.toLower_of_not_ascii hc]

/-- A digit is read by the lower case that is written for it. -/
theorem digitValue?_eq_some_iff {c : Char} {d : Nat} (hd : d < 16) :
    digitValue? c = some d ↔ c.toLower = Nat.digitChar d := by
  constructor
  · intro h
    exact (digitValue?_eq_some h).2
  · intro h
    have hdigit : ∀ d < 16, digitValue? (Nat.digitChar d) = some d := by decide
    rw [← digitValue?_toLower, h, hdigit d hd]

theorem byte?_eq_some_iff {high low : Char} {b : UInt8} :
    byte? high low = some b ↔
      high.toLower = Nat.digitChar (b.toNat / 16) ∧ low.toLower = Nat.digitChar (b.toNat % 16) := by
  have hb : b.toNat < 256 := b.toNat_lt
  rw [← digitValue?_eq_some_iff (by omega), ← digitValue?_eq_some_iff (by omega)]
  constructor
  · intro h
    simp only [byte?, Option.bind_eq_bind, Option.bind_eq_some_iff, Option.some.injEq] at h
    obtain ⟨h, hhigh, l, hlow, rfl⟩ := h
    have hlt := (digitValue?_eq_some hhigh).1
    have hlt' := (digitValue?_eq_some hlow).1
    have hsize : 16 * h + l < 256 := by omega
    have hvalue : (UInt8.ofNat (16 * h + l)).toNat = 16 * h + l := UInt8.toNat_ofNat_of_lt hsize
    rw [hvalue, hhigh, hlow]
    exact ⟨congrArg some (by omega), congrArg some (by omega)⟩
  · rintro ⟨hhigh, hlow⟩
    simp only [byte?, hhigh, hlow, Option.bind_eq_bind, Option.bind_some, Nat.div_add_mod,
      UInt8.ofNat_toNat]

end Hex

/-! ### Octets -/

theorem Bytes.toNat_bigEndian (bytes : Bytes) :
    (Bytes.bigEndian bytes).toNat = bytes.foldl (fun n b => n * 256 + b.toNat) 0 % 2 ^ 64 := by
  -- over any word and number that agree so far
  have hfrom : ∀ (n : UInt64) (k : Nat), n.toNat = k % 2 ^ 64 →
      (bytes.foldl (fun n b => n * 256 + b.toUInt64) n).toNat =
        bytes.foldl (fun n b => n * 256 + b.toNat) k % 2 ^ 64 := by
    induction bytes with
    | nil => exact fun _ _ h => h
    | cons b bytes ih =>
      intro n k h
      refine ih _ _ ?_
      simp only [UInt64.toNat_add, UInt64.toNat_mul, UInt8.toNat_toUInt64, h]
      simp
  exact hfrom 0 0 rfl

namespace MacAddress

theorem octet?_eq_ok_iff {part : List Char} {b : UInt8} :
    octet? part = .ok b ↔ part.map Char.toLower = Hex.ofByte b := by
  match part with
  | [high, low] =>
    rw [Hex.ofByte, List.map_cons, List.map_cons, List.map_nil, List.cons.injEq, List.cons.injEq,
      and_iff_left rfl, ← Hex.byte?_eq_some_iff, octet?]
    cases Hex.byte? high low <;> simp
  | [] => simp [octet?, Hex.ofByte]
  | [_] => simp [octet?, Hex.ofByte]
  | _ :: _ :: _ :: _ => simp [octet?, Hex.ofByte]

theorem mapM_octet?_eq_ok_iff {parts : List (List Char)} {bytes : Bytes} :
    parts.mapM octet? = .ok bytes ↔ parts.map (List.map Char.toLower) = bytes.map Hex.ofByte := by
  rw [mapM_eq_ok_iff, ← List.forall₂_eq_eq_eq, List.forall₂_map_left_iff,
    List.forall₂_map_right_iff]
  simp only [octet?_eq_ok_iff]

theorem length_of_mapM_octet? {parts : List (List Char)} {bytes : Bytes}
    (h : parts.mapM octet? = .ok bytes) : bytes.length = parts.length :=
  (mapM_eq_ok_iff.1 h).length_eq.symm

theorem colon_notMem_ofByte (b : UInt8) : ':' ∉ Hex.ofByte b := by
  have hdigit : ∀ d < 16, ':' ≠ Nat.digitChar d := by decide
  have hb : b.toNat < 256 := b.toNat_lt
  simp [Hex.ofByte, hdigit (b.toNat / 16) (by omega), hdigit (b.toNat % 16) (by omega)]

theorem octets_eq (a : MacAddress) :
    a.octets = [40, 32, 24, 16, 8, 0].map fun shift => UInt8.ofNat (a.value.toNat / 2 ^ shift) := by
  simp only [octets, List.map_cons, List.map_nil, List.cons.injEq, ← UInt8.toNat_inj,
    UInt64.toNat_toUInt8, UInt64.toNat_shiftRight, UInt8.toNat_ofNat', Nat.shiftRight_eq_div_pow]
  simp

/-- Six bytes are the octets of their number. -/
theorem octets_bigEndian {bytes : Bytes} (h : bytes.length = 6) :
    octets ⟨Bytes.bigEndian bytes⟩ = bytes ∧ (Bytes.bigEndian bytes).toNat < 2 ^ 48 := by
  match bytes, h with
  | [b₅, b₄, b₃, b₂, b₁, b₀], _ =>
    have h₅ : b₅.toNat < 256 := b₅.toNat_lt
    have h₄ : b₄.toNat < 256 := b₄.toNat_lt
    have h₃ : b₃.toNat < 256 := b₃.toNat_lt
    have h₂ : b₂.toNat < 256 := b₂.toNat_lt
    have h₁ : b₁.toNat < 256 := b₁.toNat_lt
    have h₀ : b₀.toNat < 256 := b₀.toNat_lt
    have hvalue := Bytes.toNat_bigEndian [b₅, b₄, b₃, b₂, b₁, b₀]
    simp only [List.foldl_cons, List.foldl_nil] at hvalue
    -- six bytes fit into the word, so none of them is shifted out
    rw [Nat.mod_eq_of_lt (by omega)] at hvalue
    refine ⟨?_, by omega⟩
    simp only [octets_eq, List.map_cons, List.map_nil, List.cons.injEq, ← UInt8.toNat_inj,
      UInt8.toNat_ofNat', hvalue, and_true]
    omega

theorem bigEndian_octets {a : MacAddress} (h : a.value.toNat < 2 ^ 48) :
    Bytes.bigEndian a.octets = a.value := by
  rw [← UInt64.toNat_inj, Bytes.toNat_bigEndian, octets_eq]
  simp only [List.map_cons, List.map_nil, List.foldl_cons, List.foldl_nil, UInt8.toNat_ofNat']
  omega

/-! ### Texts -/

theorem toLower_eq_colon_iff (c : Char) : c.toLower = ':' ↔ c = ':' := by
  by_cases hc : c.toNat < 128
  · exact Text.forall_ascii (P := fun c => c.toLower = ':' ↔ c = ':') (by decide) hc
  · rw [Text.toLower_of_not_ascii hc]

/-- No digit is a colon, so the text of an address falls into its octets again. -/
theorem pieces_toChars (a : MacAddress) : Pieces ':' a.toChars (a.octets.map Hex.ofByte) where
  nonempty := by simp [octets]
  apart := by
    intro piece hpiece
    obtain ⟨b, -, rfl⟩ := List.mem_map.1 hpiece
    exact colon_notMem_ofByte b
  joined := rfl

/-- **Which characters are read as an address**: its own ones but for letter case. -/
theorem ofChars?_eq_ok_iff {cs : List Char} {a : MacAddress} :
    ofChars? cs = .ok a ↔ cs.map Char.toLower = a.toChars ∧ a.value.toNat < 2 ^ 48 := by
  have hparts := Pieces.splitOn_map toLower_eq_colon_iff cs
  constructor
  · intro h
    by_cases hlength : (cs.splitOn ':').length = 6
    · rw [ofChars?, if_pos hlength] at h
      obtain ⟨bytes, hread, rfl⟩ := map_eq_ok_iff.1 h
      have hsix : bytes.length = 6 := (length_of_mapM_octet? hread).trans hlength
      obtain ⟨hoctets, hlt⟩ := octets_bigEndian hsix
      rw [mapM_octet?_eq_ok_iff.1 hread] at hparts
      refine ⟨?_, hlt⟩
      rw [toChars, hoctets, ← hparts, List.intercalate_splitOn]
    · rw [ofChars?, if_neg hlength] at h
      cases h
  · rintro ⟨hcs, hlt⟩
    rw [hcs, ← Pieces.iff_eq_splitOn.1 (pieces_toChars a)] at hparts
    have hlength : (cs.splitOn ':').length = 6 := by
      rw [← List.length_map (f := List.map Char.toLower), ← hparts]
      rfl
    rw [ofChars?, if_pos hlength, mapM_octet?_eq_ok_iff.2 hparts.symm, Except.map,
      bigEndian_octets hlt]

/-- Two texts write one address just if they are the same but for letter case. -/
theorem ofText?_eq_iff_sameName {text text' : String} {a : MacAddress}
    (h : ofText? text = .ok a) : ofText? text' = .ok a ↔ sameName text text' = true := by
  obtain ⟨hchars, hlt⟩ := ofChars?_eq_ok_iff.1 h
  rw [ofText?, ofChars?_eq_ok_iff, and_iff_left hlt, ← hchars, sameName_iff, eq_comm]

end MacAddress

end Hotspot
