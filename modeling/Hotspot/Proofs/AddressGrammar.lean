/-
  Hotspot/Proofs/AddressGrammar.lean
  ==================================
  **Which texts are addresses, and what is said of the others.**

  An address is written as six groups of two digits with colons between them.  A text is no address
  either because it has another number of groups, and then that number is reported, or because some
  group is not two digits, and then the leftmost of these is.  One character is never two digits,
  also when it takes up two bytes.
-/
import Hotspot.Proofs.CompleteConfigs

namespace Hotspot.MacAddress

def IsOctet (group : List Char) : Prop :=
  ∃ high low, group = [high, low] ∧ Hex.IsDigit high ∧ Hex.IsDigit low

/-- Two digits, in either letter case, whose number is an octet. -/
def Writes (group : List Char) (octet : UInt8) : Prop :=
  ∃ high low, group = [high, low] ∧ high.toLower = Nat.digitChar (octet.toNat / 16) ∧
    low.toLower = Nat.digitChar (octet.toNat % 16)

/-! ### Groups -/

variable {group : List Char} {octet : UInt8} {e : ReadError}

theorem writes_iff : Writes group octet ↔ group.map Char.toLower = Hex.ofByte octet := by
  constructor
  · rintro ⟨high, low, rfl, hhigh, hlow⟩
    rw [List.map_cons, List.map_cons, List.map_nil, hhigh, hlow, Hex.ofByte]
  · intro h
    obtain ⟨high, rest, rfl, hhigh, hrest⟩ := List.map_eq_cons_iff.1 h
    obtain ⟨low, rest, rfl, hlow, hrest⟩ := List.map_eq_cons_iff.1 hrest
    rw [List.map_eq_nil_iff.1 hrest]
    exact ⟨high, low, rfl, hhigh, hlow⟩

theorem octet?_of_not_isOctet (h : ¬IsOctet group) :
    octet? group = .error (.invalidOctet (String.ofList group)) := by
  match group with
  | [high, low] =>
    have hnone : Hex.byte? high low = none := by
      rw [← Option.not_isSome_iff_eq_none, Hex.byte?_isSome_iff]
      exact fun hdigits => h ⟨high, low, rfl, hdigits⟩
    rw [octet?, hnone]
  | [] | [_] | _ :: _ :: _ :: _ => rfl

theorem exists_octet?_eq_ok_iff : (∃ b, octet? group = .ok b) ↔ IsOctet group := by
  constructor
  · rintro ⟨b, hb⟩
    by_contra h
    rw [octet?_of_not_isOctet h] at hb
    cases hb
  · rintro ⟨high, low, rfl, hdigits⟩
    obtain ⟨b, hb⟩ := Option.isSome_iff_exists.1 ((Hex.byte?_isSome_iff high low).2 hdigits)
    exact ⟨b, by rw [octet?, hb]⟩

theorem octet?_eq_error_iff :
    octet? group = .error e ↔ ¬IsOctet group ∧ e = .invalidOctet (String.ofList group) := by
  by_cases h : IsOctet group
  · obtain ⟨b, hb⟩ := exists_octet?_eq_ok_iff.2 h
    rw [hb]
    exact iff_of_false nofun fun ⟨hnot, _⟩ => hnot h
  · rw [octet?_of_not_isOctet h, and_iff_right h, Except.error.injEq, eq_comm]

/-! ### Texts -/

variable {text : String} {groups : List (List Char)} {a : MacAddress}

theorem ofText?_eq (h : Pieces ':' text.toList groups) : ofText? text =
    if groups.length = 6 then (groups.mapM octet?).map fun octets => ⟨Bytes.bigEndian octets⟩
    else .error (.wrongLength groups.length) := by
  rw [Pieces.iff_eq_splitOn.1 h]
  rfl

theorem forall₂_of_ofText? (h : Pieces ':' text.toList groups) (hread : ofText? text = .ok a) :
    List.Forall₂ Writes groups a.octets := by
  rw [ofText?_eq h] at hread
  split at hread
  · next hlength =>
    obtain ⟨octets, hoctets, rfl⟩ := map_eq_ok_iff.1 hread
    have hsix : octets.length = 6 := (length_of_mapM_octet? hoctets).trans hlength
    rw [(octets_bigEndian hsix).1]
    exact (mapM_eq_ok_iff.1 hoctets).imp fun _ _ h => writes_iff.2 (octet?_eq_ok_iff.1 h)
  · cases hread

/-- Which texts are addresses, by their groups. -/
theorem exists_ofText?_eq_ok_iff (h : Pieces ':' text.toList groups) :
    (∃ a, ofText? text = .ok a) ↔ groups.length = 6 ∧ ∀ group ∈ groups, IsOctet group := by
  rw [ofText?_eq h]
  split
  · next hlength =>
    simp only [map_eq_ok_iff, hlength, true_and, ← exists_octet?_eq_ok_iff, ← exists_mapM_eq_ok_iff]
    constructor
    · rintro ⟨_, octets, hoctets, -⟩
      exact ⟨octets, hoctets⟩
    · rintro ⟨octets, hoctets⟩
      exact ⟨_, octets, hoctets, rfl⟩
  · next hlength => simp [hlength]

theorem ofText?_eq_wrongLength_iff (h : Pieces ':' text.toList groups) {n : Nat} :
    ofText? text = .error (.wrongLength n) ↔ n = groups.length ∧ n ≠ 6 := by
  rw [ofText?_eq h]
  split
  · next hlength =>
    refine iff_of_false ?_ (fun ⟨hn, hne⟩ => hne (hn.trans hlength))
    rw [map_eq_error_iff, mapM_eq_error_iff]
    rintro ⟨_, group, _, -, -, herror⟩
    cases (octet?_eq_error_iff.1 herror).2
  · next hlength =>
    constructor
    · intro h
      cases h
      exact ⟨rfl, hlength⟩
    · rintro ⟨rfl, -⟩
      rfl

theorem ofText?_eq_invalidOctet_iff (h : Pieces ':' text.toList groups) {part : String} :
    ofText? text = .error (.invalidOctet part) ↔ groups.length = 6 ∧
      ∃ before group after, groups = before ++ group :: after ∧ (∀ g ∈ before, IsOctet g) ∧
        ¬IsOctet group ∧ part = String.ofList group := by
  rw [ofText?_eq h]
  split
  · next hlength =>
    rw [map_eq_error_iff, mapM_eq_error_iff, and_iff_right hlength]
    simp only [exists_octet?_eq_ok_iff, octet?_eq_error_iff, ReadError.invalidOctet.injEq]
  · next hlength => exact iff_of_false nofun fun ⟨hsix, _⟩ => hlength hsix

theorem toText_eq_toLower (h : ofText? text = .ok a) : a.toText = text.toLower := by
  have hlower : text.toLower = text.map Char.toLower := rfl
  rw [toText, ← (ofChars?_eq_ok_iff.1 h).1, hlower, ← String.toList_map, String.ofList_toList]

theorem map_toLower_ofByte (b : UInt8) : (Hex.ofByte b).map Char.toLower = Hex.ofByte b := by
  have hdigit : ∀ d < 16, (Nat.digitChar d).toLower = Nat.digitChar d := by decide
  have hb : b.toNat < 256 := b.toNat_lt
  simp [Hex.ofByte, hdigit (b.toNat / 16) (by omega), hdigit (b.toNat % 16) (by omega)]

/-- The text of an address is read as that address. -/
theorem ofText?_toText (h : a.value.toNat < 2 ^ 48) : ofText? a.toText = .ok a := by
  have hoctets : (a.octets.map Hex.ofByte).mapM octet? = .ok a.octets := by
    rw [mapM_octet?_eq_ok_iff, List.map_map]
    exact List.map_congr_left fun b _ => map_toLower_ofByte b
  have hpieces : Pieces ':' a.toText.toList (a.octets.map Hex.ofByte) := by
    rw [toText, String.toList_ofList]
    exact pieces_toChars a
  have hlength : (a.octets.map Hex.ofByte).length = 6 := rfl
  rw [ofText?_eq hpieces, if_pos hlength, hoctets, Except.map, bigEndian_octets h]

/-- **Which texts are addresses.**  They are those of six groups of two digits each.  What is read
    is the octets of these groups, and its own text is the one that was read in lower case.  Of
    other texts the number of groups is reported or, if it is right, the leftmost group that is not
    two digits. -/
theorem reads_six_octets (text : String) :
    ∃ groups, Pieces ':' text.toList groups ∧
    ((∃ a, ofText? text = .ok a) ↔ groups.length = 6 ∧ ∀ group ∈ groups, IsOctet group) ∧
    (∀ a, ofText? text = .ok a → a.value.toNat < 2 ^ 48 ∧ a.toText = text.toLower ∧
      List.Forall₂ Writes groups a.octets) ∧
    (∀ n, ofText? text = .error (.wrongLength n) ↔ n = groups.length ∧ n ≠ 6) ∧
    (∀ part, ofText? text = .error (.invalidOctet part) ↔ groups.length = 6 ∧
      ∃ before group after, groups = before ++ group :: after ∧ (∀ g ∈ before, IsOctet g) ∧
        ¬IsOctet group ∧ part = String.ofList group) ∧
    ∀ a : MacAddress, a.value.toNat < 2 ^ 48 → ofText? a.toText = .ok a := by
  have h : Pieces ':' text.toList (text.toList.splitOn ':') := Pieces.iff_eq_splitOn.2 rfl
  refine ⟨_, h, exists_ofText?_eq_ok_iff h, ?_, fun _ => ofText?_eq_wrongLength_iff h,
    fun _ => ofText?_eq_invalidOctet_iff h, fun _ => ofText?_toText⟩
  intro a hread
  exact ⟨(ofChars?_eq_ok_iff.1 hread).2, toText_eq_toLower hread, forall₂_of_ofText? h hread⟩

/-- An address in both letter cases, and a text with a group of one character that is written on
    two bytes. -/
theorem reads_six_octets_accent :
    let a : MacAddress := ⟨0x0ABC00FF1E7F⟩
    ofText? "0A:bC:00:ff:1E:7f" = .ok a ∧ a.toText = "0a:bc:00:ff:1e:7f" ∧
    a.value.toNat < 2 ^ 48 ∧ ofText? a.toText = .ok a ∧
    ofText? "00:é:zz:00:00:00" = .error (.invalidOctet "é") := by
  intro a
  have hread : ofText? "0A:bC:00:ff:1E:7f" = .ok a := by decide
  obtain ⟨_, _, _, hok, _, _, hwritten⟩ := reads_six_octets "0A:bC:00:ff:1E:7f"
  obtain ⟨hlt, -, -⟩ := hok a hread
  obtain ⟨groups, hgroups, _, _, _, hinvalid, _⟩ := reads_six_octets "00:é:zz:00:00:00"
  have hcut : groups = [['0', '0'], ['é'], ['z', 'z'], ['0', '0'], ['0', '0'], ['0', '0']] :=
    (Pieces.iff_eq_splitOn.1 hgroups).trans (by decide)
  have hzeros : IsOctet ['0', '0'] := ⟨'0', '0', rfl, Or.inl (by decide), Or.inl (by decide)⟩
  have hleftmost : ∀ g ∈ [['0', '0']], IsOctet g := List.forall_mem_singleton.2 hzeros
  have haccent : ¬IsOctet ['é'] := by
    rintro ⟨high, low, h, -⟩
    cases h
  refine ⟨hread, by decide, hlt, hwritten a hlt, (hinvalid "é").2 ?_⟩
  rw [hcut]
  exact ⟨rfl, [['0', '0']], ['é'], _, rfl, hleftmost, haccent, rfl⟩

end Hotspot.MacAddress
