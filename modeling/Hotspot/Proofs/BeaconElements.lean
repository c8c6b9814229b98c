/-
  Hotspot/Proofs/BeaconElements.lean
  ==================================
  **What a beacon that may be cut off still tells.**

  An element is read in pieces, one after the other, and the widths of the pieces are known before
  any of them is read.  So it is cut off just if it is shorter than all of them together, and what
  is reported is the first piece that does not fit, with what is left for it (`FirstShort`).

  The identifiers of a Roaming Consortium element take up all that follows its two bytes of
  heading, and are numbers whose most significant byte comes first (`RoamingConsortium.Layout`).
  The fields of a Hotspot 2.0 indication stand at places of their own, the second of them where it
  does only if the first is there (`Indication.Tells`), and what follows them does not count.
-/
import Mathlib.Data.Nat.Digits.Lemmas
import Hotspot.Proofs.AddressText
import Hotspot.Proofs.Indications
import Hotspot.Proofs.Outcomes

namespace Hotspot

/-! ### Pieces that do not fit -/

/-- Of pieces with some widths that are cut one after the other from a number of bytes, the first
    that does not fit. -/
inductive FirstShort : List Nat → Nat → Truncated → Prop where
  | here {width available : Nat} {widths : List Nat} (short : available < width) :
      FirstShort (width :: widths) available ⟨width, available⟩
  | later {width available : Nat} {widths : List Nat} {t : Truncated} (fits : width ≤ available)
      (next : FirstShort widths (available - width) t) : FirstShort (width :: widths) available t

namespace FirstShort

variable {width available : Nat} {widths : List Nat} {t : Truncated}

theorem not_nil : ¬FirstShort [] available t := nofun

/-- Without pieces nothing fails. -/
theorem ok_eq_error_iff {α : Type} {a : α} :
    Except.ok a = .error t ↔ FirstShort [] available t := iff_of_false nofun not_nil

theorem cons_iff : FirstShort (width :: widths) available t ↔
    (available < width ∧ t = ⟨width, available⟩) ∨
      (width ≤ available ∧ FirstShort widths (available - width) t) := by
  constructor
  · rintro (short | ⟨fits, next⟩)
    · exact Or.inl ⟨short, rfl⟩
    · exact Or.inr ⟨fits, next⟩
  · rintro (⟨short, rfl⟩ | ⟨fits, next⟩)
    · exact here short
    · exact later fits next

/-- Some piece does not fit just if all of them together do not. -/
theorem exists_iff : (∃ t, FirstShort widths available t) ↔ available < widths.sum := by
  induction widths generalizing available with
  | nil => simp [not_nil]
  | cons width widths ih =>
    rw [List.sum_cons]
    by_cases short : available < width
    · exact iff_of_true ⟨_, here short⟩ (by omega)
    · have fits : width ≤ available := by omega
      have hnext : (∃ t, FirstShort (width :: widths) available t) ↔
          ∃ t, FirstShort widths (available - width) t := by
        simp only [cons_iff, short, fits, false_and, true_and, false_or]
      rw [hnext, ih]
      omega

/-- What fails just with the first piece that is short succeeds just if no piece is. -/
theorem exists_eq_ok_iff {α : Type} {x : Except Truncated α}
    (h : ∀ t, x = .error t ↔ FirstShort widths available t) :
    (∃ a, x = .ok a) ↔ widths.sum ≤ available := by
  simp only [Hotspot.exists_eq_ok_iff, h, exists_iff, not_lt]

/-- One piece is cut, and the others from the bytes that it leaves. -/
theorem bind_eq_error_iff {α β : Type} {bytes : Bytes} {x : Except Truncated (α × Bytes)}
    {f : α × Bytes → Except Truncated β}
    (herror : ∀ t, x = .error t ↔ bytes.length < width ∧ t = ⟨width, bytes.length⟩)
    (hok : ∀ a rest, x = .ok (a, rest) → bytes.length = width + rest.length)
    (hrest : ∀ a rest, f (a, rest) = .error t ↔ FirstShort widths rest.length t) :
    x >>= f = .error t ↔ FirstShort (width :: widths) bytes.length t := by
  rw [Hotspot.bind_eq_error_iff, cons_iff, herror]
  refine or_congr_right ?_
  cases x with
  | error t' =>
    have short : bytes.length < width := ((herror t').1 rfl).1
    exact iff_of_false nofun fun ⟨fits, _⟩ => not_lt.2 fits short
  | ok cut =>
    obtain ⟨a, rest⟩ := cut
    rw [hok a rest rfl, and_iff_right (Nat.le_add_right width _), Nat.add_sub_cancel_left]
    constructor
    · rintro ⟨_, ha, h⟩
      cases ha
      exact (hrest a rest).1 h
    · intro h
      exact ⟨(a, rest), rfl, (hrest a rest).2 h⟩

end FirstShort

/-! ### Numbers -/

namespace Bytes

def value (bytes : Bytes) : Nat := Nat.ofDigits 256 (bytes.reverse.map UInt8.toNat)

theorem bigEndian_eq (bytes : Bytes) : bigEndian bytes = UInt64.ofNat (value bytes) := by
  rw [← UInt64.toNat_inj, toNat_bigEndian, UInt64.toNat_ofNat', value, Nat.ofDigits_eq_foldr,
    List.map_reverse, List.foldr_reverse, List.foldl_map]
  simp only [Nat.cast_id, Nat.mul_comm 256, Nat.add_comm]

theorem toNat_littleEndian16 (low high : UInt8) :
    (littleEndian16 low high).toNat = low.toNat + 256 * high.toNat := by
  have hlow : low.toNat < 256 := low.toNat_lt
  have hhigh : high.toNat < 256 := high.toNat_lt
  have hfactor : (256 : UInt16).toNat = 256 := rfl
  rw [littleEndian16, UInt16.toNat_add, UInt16.toNat_mul, UInt8.toNat_toUInt16,
    UInt8.toNat_toUInt16, hfactor]
  omega

def ofValue (width n : Nat) : Bytes := ((Nat.digitsAppend 256 width n).map UInt8.ofNat).reverse

theorem length_ofValue {width n : Nat} (h : n < 256 ^ width) :
    (ofValue width n).length = width := by
  rw [ofValue, List.length_reverse, List.length_map,
    Nat.length_digitsAppend (by decide) width h]

theorem value_ofValue (width n : Nat) : value (ofValue width n) = n := by
  have hdigits : ∀ d ∈ Nat.digitsAppend 256 width n, (UInt8.ofNat d).toNat = d := by
    intro d hd
    exact UInt8.toNat_ofNat_of_lt (Nat.lt_of_mem_digitsAppend (by decide) width d hd)
  rw [value, ofValue, List.reverse_reverse, List.map_map,
    List.map_congr_left (f := UInt8.toNat ∘ UInt8.ofNat) (g := id) hdigits, List.map_id,
    Nat.digitsAppend, Nat.ofDigits_append_replicate_zero, Nat.ofDigits_digits]

end Bytes

/-! ### Organisation identifiers -/

namespace RoamingConsortium

/-- What segments say: the numbers of those that are not empty, modulo 2^64. -/
def identifiers (segments : List Bytes) : List UInt64 :=
  (segments.filter (· ≠ [])).map fun segment => UInt64.ofNat (Bytes.value segment)

/-- The data of an element and what they say.  The lengths of the first two segments are the halves
    of one byte, and the last one takes all that is left. -/
inductive Layout : Bytes → RoamingConsortium → Prop where
  | segments {furtherCount lengths : UInt8} {first second last : Bytes}
      (hfirst : first.length = lengths.toNat % 16) (hsecond : second.length = lengths.toNat / 16) :
      Layout (furtherCount :: lengths :: (first ++ (second ++ last)))
        { furtherCount, ois := identifiers [first, second, last] }

theorem length_identifiers_le (segments : List Bytes) :
    (identifiers segments).length ≤ segments.length := by
  rw [identifiers, List.length_map]
  exact List.length_filter_le _ _

theorem identifiers_cons (segment : Bytes) (segments : List Bytes) :
    identifiers (segment :: segments) = identifiers [segment] ++ identifiers segments := by
  rw [identifiers, ← List.singleton_append, List.filter_append, List.map_append]
  rfl

theorem identifiers_singleton {segment : Bytes} (h : segment ≠ []) :
    identifiers [segment] = [Bytes.bigEndian segment] := by
  simp [identifiers, h, Bytes.bigEndian_eq]

theorem identifiers_segments (first second last : Bytes) :
    identifiers [first] ++ identifiers [second] ++
        (if last.isEmpty then [] else [Bytes.bigEndian last]) =
      identifiers [first, second, last] := by
  have hlast : (if last.isEmpty then [] else [Bytes.bigEndian last]) = identifiers [last] := by
    cases last with
    | nil => rfl
    | cons b last => exact (identifiers_singleton (List.cons_ne_nil b last)).symm
  rw [hlast, List.append_assoc, ← identifiers_cons second, ← identifiers_cons first]

theorem readOi_eq_ok_iff {width : Nat} {bytes rest : Bytes} {ois : List UInt64} :
    readOi width bytes = .ok (ois, rest) ↔
      ∃ segment, segment.length = width ∧ bytes = segment ++ rest ∧
        ois = identifiers [segment] := by
  rw [readOi]
  split
  · next hzero =>
    subst hzero
    constructor
    · intro h
      cases h
      exact ⟨[], rfl, rfl, rfl⟩
    · rintro ⟨segment, hlength, rfl, rfl⟩
      obtain rfl := List.length_eq_zero_iff.1 hlength
      rfl
  · next hpos =>
    split
    · next short =>
      refine iff_of_false nofun ?_
      rintro ⟨segment, rfl, rfl, -⟩
      rw [List.length_append] at short
      omega
    · next fits =>
      constructor
      · intro h
        cases h
        have hlength : (bytes.take width).length = width := by
          rw [List.length_take]
          omega
        refine ⟨bytes.take width, hlength, (List.take_append_drop width bytes).symm, ?_⟩
        rw [identifiers_singleton (List.length_pos_iff.1 (by omega))]
      · rintro ⟨segment, rfl, rfl, rfl⟩
        rw [List.take_left, List.drop_left,
          identifiers_singleton (List.length_pos_iff.1 (Nat.pos_of_ne_zero hpos))]

theorem readOi_eq_error_iff {width : Nat} {bytes : Bytes} {t : Truncated} :
    readOi width bytes = .error t ↔ bytes.length < width ∧ t = ⟨width, bytes.length⟩ := by
  rw [readOi]
  split
  · next hzero => simp [hzero]
  · next hpos =>
    split
    · next short => simp [short, eq_comm]
    · next fits => simp [fits]

theorem length_of_readOi {width : Nat} {bytes : Bytes} (ois : List UInt64) (rest : Bytes)
    (h : readOi width bytes = .ok (ois, rest)) : bytes.length = width + rest.length := by
  obtain ⟨segment, rfl, rfl, -⟩ := readOi_eq_ok_iff.1 h
  exact List.length_append

variable {data : Bytes} {rc : RoamingConsortium} {t : Truncated}

theorem read_eq_ok_iff : read data = .ok rc ↔ Layout data rc := by
  constructor
  · intro h
    match data, h with
    | furtherCount :: lengths :: bytes, h =>
      obtain ⟨⟨ois, rest⟩, hread, h⟩ := bind_eq_ok_iff.1 h
      obtain ⟨⟨ois', last⟩, hread', h⟩ := bind_eq_ok_iff.1 h
      cases h
      obtain ⟨first, hfirst, rfl, rfl⟩ := readOi_eq_ok_iff.1 hread
      obtain ⟨second, hsecond, rfl, rfl⟩ := readOi_eq_ok_iff.1 hread'
      rw [identifiers_segments]
      exact .segments hfirst hsecond
  · rintro ⟨hfirst, hsecond⟩
    rename_i furtherCount lengths first second last
    refine bind_eq_ok_iff.2 ⟨_, readOi_eq_ok_iff.2 ⟨first, hfirst, rfl, rfl⟩, ?_⟩
    refine bind_eq_ok_iff.2 ⟨_, readOi_eq_ok_iff.2 ⟨second, hsecond, rfl, rfl⟩, ?_⟩
    rw [← identifiers_segments]

theorem read_eq_error_iff : read data = .error t ↔
    FirstShort [2, (data.getD 1 0).toNat % 16, (data.getD 1 0).toNat / 16] data.length t := by
  match data with
  | [] | [_] => simp [read, FirstShort.cons_iff, eq_comm]
  | furtherCount :: lengths :: bytes =>
    rw [FirstShort.cons_iff, or_iff_right (by simp), and_iff_right (by simp)]
    refine FirstShort.bind_eq_error_iff (fun _ => readOi_eq_error_iff) length_of_readOi ?_
    intro first rest
    refine FirstShort.bind_eq_error_iff (fun _ => readOi_eq_error_iff) length_of_readOi ?_
    exact fun _ _ => FirstShort.ok_eq_error_iff

/-- An identifier and the number of bytes on which it is written. -/
structure WrittenOi where
  value : UInt64
  width : Nat
  nonempty : 1 ≤ width
  short : width ≤ 8
  fits : value.toNat < 256 ^ width

namespace WrittenOi

def bytes (oi : WrittenOi) : Bytes := Bytes.ofValue oi.width oi.value.toNat

theorem length_bytes (oi : WrittenOi) : oi.bytes.length = oi.width := Bytes.length_ofValue oi.fits

theorem bytes_ne_nil (oi : WrittenOi) : oi.bytes ≠ [] := by
  have hwidth := oi.nonempty
  rw [← List.length_pos_iff, length_bytes]
  omega

theorem value_bytes (oi : WrittenOi) : Bytes.value oi.bytes = oi.value.toNat :=
  Bytes.value_ofValue _ _

end WrittenOi

def write (furtherCount : UInt8) (ois : List WrittenOi) : Bytes :=
  let widths := ois.map (·.width)
  furtherCount :: UInt8.ofNat (widths.getD 0 0 + 16 * widths.getD 1 0) :: ois.flatMap (·.bytes)

theorem identifiers_bytes (ois : List WrittenOi) :
    identifiers (ois.map (·.bytes)) = ois.map (·.value) := by
  induction ois with
  | nil => rfl
  | cons oi ois ih =>
    rw [List.map_cons, identifiers_cons, ih, identifiers_singleton oi.bytes_ne_nil,
      Bytes.bigEndian_eq, oi.value_bytes, UInt64.ofNat_toNat, List.map_cons, List.singleton_append]

theorem layout_of_length_le (furtherCount : UInt8) {first second : Bytes} (last : Bytes)
    (hfirst : first.length ≤ 8) (hsecond : second.length ≤ 8) :
    Layout (furtherCount :: UInt8.ofNat (first.length + 16 * second.length) ::
      (first ++ (second ++ last))) { furtherCount, ois := identifiers [first, second, last] } := by
  have hbyte : first.length + 16 * second.length < 2 ^ 8 := by omega
  have hlengths : (UInt8.ofNat (first.length + 16 * second.length)).toNat =
      first.length + 16 * second.length := UInt8.toNat_ofNat_of_lt hbyte
  refine .segments ?_ ?_
  · rw [hlengths]
    omega
  · rw [hlengths]
    omega

/-- What is written of up to three identifiers is read again. -/
theorem read_write (furtherCount : UInt8) {ois : List WrittenOi} (h : ois.length ≤ 3) :
    read (write furtherCount ois) = .ok { furtherCount, ois := ois.map (·.value) } := by
  have hshort : ∀ oi : WrittenOi, oi.bytes.length ≤ 8 := fun oi => oi.length_bytes ▸ oi.short
  have hempty : ([] : Bytes).length ≤ 8 := Nat.zero_le 8
  rw [read_eq_ok_iff, ← identifiers_bytes]
  -- segments that are not needed are empty, and say nothing
  match ois, h with
  | [], _ => exact layout_of_length_le furtherCount [] hempty hempty
  | [a], _ =>
    have hlayout : Layout _ { furtherCount, ois := identifiers [a.bytes] } :=
      layout_of_length_le furtherCount [] (hshort a) hempty
    simpa [write, WrittenOi.length_bytes] using hlayout
  | [a, b], _ =>
    have hlayout : Layout _ { furtherCount, ois := identifiers [a.bytes, b.bytes] } :=
      layout_of_length_le furtherCount [] (hshort a) (hshort b)
    simpa [write, WrittenOi.length_bytes] using hlayout
  | [a, b, c], _ =>
    have hlayout := layout_of_length_le furtherCount c.bytes (hshort a) (hshort b)
    simpa [write, WrittenOi.length_bytes] using hlayout

/-- **What an element of organisation identifiers tells.**  It can be read just if the two segments
    whose lengths it gives fit, and then says what stands in them and in all that is left.
    Otherwise the first piece that does not fit is reported.  So up to three identifiers can be
    written on up to eight bytes each and are read as they are. -/
theorem reads_segments_in_order (data : Bytes) :
    let lengths := (data.getD 1 0).toNat
    ((∃ rc, read data = .ok rc) ↔ 2 + lengths % 16 + lengths / 16 ≤ data.length) ∧
    (∀ rc, read data = .ok rc ↔ Layout data rc) ∧
    (∀ rc, Layout data rc → rc.ois.length ≤ 3) ∧
    (∀ t, read data = .error t ↔
      FirstShort [2, lengths % 16, lengths / 16] data.length t) ∧
    ∀ (furtherCount : UInt8) (ois : List WrittenOi), ois.length ≤ 3 →
      read (write furtherCount ois) = .ok { furtherCount, ois := ois.map (·.value) } := by
  refine ⟨?_, fun _ => read_eq_ok_iff, ?_, fun _ => read_eq_error_iff,
    fun furtherCount _ => read_write furtherCount⟩
  · rw [FirstShort.exists_eq_ok_iff fun _ => read_eq_error_iff]
    simp only [List.sum_cons, List.sum_nil, Nat.add_zero, Nat.add_assoc]
  · rintro _ ⟨-, -⟩
    exact length_identifiers_le _

/-- Identifiers of three, five and eight bytes, one of them with leading zeros, and an element that
    ends within its second segment. -/
theorem reads_segments_in_order_truncated :
    let ois : List WrittenOi :=
      [⟨0x1BC5, 3, by decide, by decide, by decide⟩,
       ⟨0x506F9A0001, 5, by decide, by decide, by decide⟩,
       ⟨0xFFFFFFFFFFFFFFFF, 8, by decide, by decide, by decide⟩]
    let cutOff : Bytes := [0, 0x53, 1, 2, 3, 4]
    ois.length ≤ 3 ∧ write 1 ois = [1, 0x53, 0, 0x1B, 0xC5, 0x50, 0x6F, 0x9A, 0, 1,
      0xFF, 0xFF, 0xFF, 0xFF, 0xFF, 0xFF, 0xFF, 0xFF] ∧
    read (write 1 ois) = .ok ⟨1, [0x1BC5, 0x506F9A0001, 0xFFFFFFFFFFFFFFFF]⟩ ∧
    read cutOff = .error ⟨5, 1⟩ := by
  intro ois cutOff
  have hlength : ois.length ≤ 3 := by decide
  obtain ⟨-, -, -, herror, hwritten⟩ := reads_segments_in_order cutOff
  have hlengths : (cutOff.getD 1 0).toNat = 0x53 := by decide
  have hshort : FirstShort [2, 3, 5] 6 ⟨5, 1⟩ :=
    .later (by decide) (.later (by decide) (.here (by decide)))
  rw [hlengths] at herror
  exact ⟨hlength, by decide, hwritten 1 ois hlength, (herror _).2 hshort⟩

end RoamingConsortium

/-! ### Indications -/

namespace Indication

def HasHeading (e : InformationElement) : Prop :=
  e.id = 221 ∧ 4 ≤ e.data.length ∧ e.data.take 4 = [0x50, 0x6F, 0x9A, 0x10]

def announces (data : Bytes) (flag : UInt8) : Bool := data.getD 4 0 &&& flag != 0

def size (data : Bytes) : Nat :=
  5 + 2 * (announces data 0x02).toNat + 2 * (announces data 0x04).toNat

/-- A field of two bytes at a place in the data, the less significant byte first, by whether it is
    announced. -/
inductive FieldAt (data : Bytes) (place : Nat) : Bool → Option UInt16 → Prop where
  | absent : FieldAt data place false none
  | present {low high : UInt8} {value : UInt16} (hlow : data[place]? = some low)
      (hhigh : data[place + 1]? = some high) (hvalue : value.toNat = low.toNat + 256 * high.toNat) :
      FieldAt data place true (some value)

/-- What the data of an indication tell.  The domain id stands right after the flags, unless there
    is another field before it. -/
structure Tells (data : Bytes) (i : Indication) : Prop where
  release : i.release =
    if (data.getD 4 0).toNat / 16 = 0 then .r1
    else if (data.getD 4 0).toNat / 16 = 1 then .r2 else .r3
  ppsMoId : FieldAt data 5 (announces data 0x02) i.ppsMoId
  domainId : FieldAt data (5 + 2 * (announces data 0x02).toNat) (announces data 0x04) i.domainId

theorem isIndication_iff {e : InformationElement} : isIndication e = true ↔ HasHeading e := by
  rw [isIndication, HasHeading, Bool.and_eq_true, beq_iff_eq, List.isPrefixOf_iff_prefix,
    List.prefix_iff_eq_take]
  refine and_congr_right fun _ => ⟨?_, fun ⟨_, h⟩ => h.symm⟩
  intro h
  have hlength := congrArg List.length h
  rw [List.length_take] at hlength
  exact ⟨min_eq_left_iff.1 hlength.symm, h.symm⟩

theorem Field.length_eq {flagged : Bool} {bytes : Bytes} {value : Option UInt16}
    (h : Field flagged bytes value) : bytes.length = 2 * flagged.toNat := by
  cases h <;> rfl

theorem optionalField_eq_error_iff {flagged : Bool} {bytes : Bytes} {t : Truncated} :
    optionalField flagged bytes = .error t ↔
      bytes.length < 2 * flagged.toNat ∧ t = ⟨2 * flagged.toNat, bytes.length⟩ := by
  cases flagged with
  | false => simp [optionalField]
  | true =>
    match bytes with
    | [] | [_] => simp [optionalField, eq_comm]
    | _ :: _ :: _ => simp [optionalField]

theorem length_of_optionalField {flagged : Bool} {bytes : Bytes} (value : Option UInt16)
    (rest : Bytes) (h : optionalField flagged bytes = .ok (value, rest)) :
    bytes.length = 2 * flagged.toNat + rest.length := by
  obtain ⟨field, hfield, rfl⟩ := optionalField_eq_ok_iff.1 h
  rw [List.length_append, hfield.length_eq]

variable {data : Bytes} {i : Indication} {t : Truncated}

theorem read_eq_error_iff : read data = .error t ↔
    FirstShort [5, 2 * (announces data 0x02).toNat, 2 * (announces data 0x04).toNat]
      data.length t := by
  match data with
  | [] | [_] | [_, _] | [_, _, _] | [_, _, _, _] => simp [read, FirstShort.cons_iff, eq_comm]
  | b₀ :: b₁ :: b₂ :: b₃ :: flags :: bytes =>
    rw [FirstShort.cons_iff, or_iff_right (by simp), and_iff_right (by simp)]
    refine FirstShort.bind_eq_error_iff (fun _ => optionalField_eq_error_iff)
      length_of_optionalField ?_
    intro ppsMoId rest
    refine FirstShort.bind_eq_error_iff (fun _ => optionalField_eq_error_iff)
      length_of_optionalField ?_
    exact fun _ _ => FirstShort.ok_eq_error_iff

/-- The field between bytes before and after it. -/
theorem Field.fieldAt {flagged : Bool} {field : Bytes} {value : Option UInt16}
    (h : Field flagged field value) (before after : Bytes) :
    FieldAt (before ++ (field ++ after)) before.length flagged value := by
  cases h with
  | absent => exact .absent
  | present low high =>
    have hlow : (before ++ ([low, high] ++ after))[before.length]? = some low := by simp
    have hhigh : (before ++ ([low, high] ++ after))[before.length + 1]? = some high := by simp
    exact .present hlow hhigh (Bytes.toNat_littleEndian16 low high)

theorem ofFlags_eq (flags : UInt8) : Release.ofFlags flags =
    if flags.toNat / 16 = 0 then .r1 else if flags.toNat / 16 = 1 then .r2 else .r3 := by
  rw [Release.ofFlags]
  split
  · next h => rw [if_pos h]
  · next h => simp [h]
  · next h h' => rw [if_neg h, if_neg h']

theorem Layout.tells (h : Layout data i) : Tells data i := by
  cases h with
  | @fields heading mo domain rest flags ppsMoId domainId hheading hmo hdomain =>
    match heading, hheading with
    | [b₀, b₁, b₂, b₃], _ =>
      refine ⟨ofFlags_eq flags, hmo.fieldAt [b₀, b₁, b₂, b₃, flags] _, ?_⟩
      have hfield := hdomain.fieldAt ([b₀, b₁, b₂, b₃, flags] ++ mo) rest
      rw [List.append_assoc, List.length_append, hmo.length_eq] at hfield
      exact hfield

theorem exists_read_eq_ok_iff : (∃ i, read data = .ok i) ↔ size data ≤ data.length := by
  rw [FirstShort.exists_eq_ok_iff fun _ => read_eq_error_iff, size]
  simp only [List.sum_cons, List.sum_nil, Nat.add_zero, Nat.add_assoc]

/-- Bytes after the fields do not matter. -/
theorem read_take_append (h : size data ≤ data.length) (rest : Bytes) :
    read (data.take (size data) ++ rest) = read data := by
  obtain ⟨i, hread⟩ := exists_read_eq_ok_iff.2 h
  rw [hread, read_eq_ok_iff]
  cases read_eq_ok_iff.1 hread with
  | @fields heading mo domain rest' flags ppsMoId domainId hheading hmo hdomain =>
    match heading, hheading with
    | [b₀, b₁, b₂, b₃], hheading =>
      have hsize : size ([b₀, b₁, b₂, b₃] ++ flags :: (mo ++ (domain ++ rest'))) =
          ([b₀, b₁, b₂, b₃, flags] ++ (mo ++ domain)).length := by
        rw [List.length_append, List.length_append, hmo.length_eq, hdomain.length_eq,
          ← Nat.add_assoc]
        rfl
      have hdata : [b₀, b₁, b₂, b₃] ++ flags :: (mo ++ (domain ++ rest')) =
          [b₀, b₁, b₂, b₃, flags] ++ (mo ++ domain) ++ rest' := by simp
      have hlayout : Layout ([b₀, b₁, b₂, b₃] ++ flags :: (mo ++ (domain ++ rest))) _ :=
        .fields hheading hmo hdomain
      rw [hsize, hdata, List.take_left, List.append_assoc, List.append_assoc]
      exact hlayout

theorem find_eq_read {before after : List InformationElement} {e : InformationElement}
    (hbefore : ∀ e' ∈ before, ¬HasHeading e') (he : HasHeading e) :
    find (before ++ e :: after) = (read e.data).map some := by
  have hnone : before.find? isIndication = none :=
    List.find?_eq_none.2 fun e' he' h => hbefore e' he' (isIndication_iff.1 h)
  rw [find, List.find?_append, hnone, Option.none_or,
    List.find?_cons_of_pos (isIndication_iff.2 he)]

theorem find_eq_none_iff {es : List InformationElement} :
    find es = .ok none ↔ ∀ e ∈ es, ¬HasHeading e := by
  simp only [← isIndication_iff, ← List.find?_eq_none, find]
  cases es.find? isIndication with
  | none => simp
  | some e => simp [map_eq_ok_iff]

/-- An indication stays one when bytes after its fields are changed. -/
theorem HasHeading.take_append {e : InformationElement} (h : HasHeading e) (rest : Bytes) :
    HasHeading { e with data := e.data.take (size e.data) ++ rest } := by
  obtain ⟨hid, hlength, hheading⟩ := h
  have hsize : 4 ≤ size e.data := by
    rw [size]
    omega
  have htake : 4 ≤ (e.data.take (size e.data)).length := by
    rw [List.length_take]
    omega
  refine ⟨hid, ?_, ?_⟩
  · rw [List.length_append]
    omega
  · rw [List.take_append_of_le_length htake, List.take_take, min_eq_left hsize, hheading]

/-- **What a list of elements tells of its network.**  Only the first indication counts.  It can be
    read just if the fields that its flags announce fit, and tells what stands in them, whatever
    comes after them.  Otherwise the first piece that does not fit is reported. -/
theorem first_indication_decides (es : List InformationElement) :
    (find es = .ok none ↔ ∀ e ∈ es, ¬HasHeading e) ∧
    ∀ before e after, es = before ++ e :: after → (∀ e' ∈ before, ¬HasHeading e') → HasHeading e →
      find es = find [e] ∧ ((∃ i, find es = .ok (some i)) ↔ size e.data ≤ e.data.length) ∧
      (∀ i, find es = .ok (some i) → Tells e.data i) ∧
      (∀ t, find es = .error t ↔
        FirstShort [5, 2 * (announces e.data 0x02).toNat, 2 * (announces e.data 0x04).toNat]
          e.data.length t) ∧
      (size e.data ≤ e.data.length → ∀ rest,
        find (before ++ { e with data := e.data.take (size e.data) ++ rest } :: after) =
          find es) := by
  refine ⟨find_eq_none_iff, ?_⟩
  rintro before e after rfl hbefore he
  have hok : ∀ i, find (before ++ e :: after) = .ok (some i) ↔ read e.data = .ok i := by
    intro i
    rw [find_eq_read hbefore he, map_eq_ok_iff]
    simp
  refine ⟨?_, ?_, ?_, ?_, ?_⟩
  · exact (find_eq_read hbefore he).trans (@find_eq_read [] [] e nofun he).symm
  · simp only [hok, exists_read_eq_ok_iff]
  · intro i h
    exact (read_eq_ok_iff.1 ((hok i).1 h)).tells
  · intro t
    rw [find_eq_read hbefore he, map_eq_error_iff, read_eq_error_iff]
  · intro hsize rest
    rw [find_eq_read hbefore he, find_eq_read hbefore (he.take_append rest),
      read_take_append hsize]

/-- A beacon with elements of other kinds before the indication and a broken one after it.  The
    indication has both fields and a byte after them, which may as well be two others; cut within
    the second field, it is broken itself. -/
theorem first_indication_decides_between_others :
    let heading : Bytes := [0x50, 0x6F, 0x9A, 0x10]
    let before : List InformationElement :=
      [⟨221, [0x00, 0x50, 0xF2, 0x04]⟩, ⟨7, heading ++ [0]⟩, ⟨221, [0x50, 0x6F, 0x9A]⟩]
    let after : List InformationElement := [⟨221, heading⟩]
    let whole : InformationElement := ⟨221, heading ++ [0x16, 0x02, 0x01, 0x07, 0x00, 0xFF]⟩
    let cut : InformationElement := ⟨221, heading ++ [0x16, 0x02, 0x01, 0x07]⟩
    let i : Indication := ⟨.r2, some 0x0102, some 7⟩
    (∀ e ∈ before, ¬HasHeading e) ∧ HasHeading whole ∧ HasHeading cut ∧
    find (before ++ whole :: after) = .ok (some i) ∧ Tells whole.data i ∧
    size whole.data = 9 ∧
    find (before ++ { whole with data := whole.data.take 9 ++ [1, 2] } :: after) = .ok (some i) ∧
    find (before ++ cut :: after) = .error ⟨2, 1⟩ := by
  intro heading before after whole cut i
  have hbefore : ∀ e ∈ before, ¬HasHeading e := by
    simp [before, heading, HasHeading]
  have hwhole : HasHeading whole := ⟨rfl, by decide, rfl⟩
  have hcut : HasHeading cut := ⟨rfl, by decide, rfl⟩
  obtain ⟨-, -, htells, -, hafter⟩ :=
    (first_indication_decides (before ++ whole :: after)).2 _ _ _ rfl hbefore hwhole
  obtain ⟨-, -, -, herror, -⟩ :=
    (first_indication_decides (before ++ cut :: after)).2 _ _ _ rfl hbefore hcut
  have hread : find (before ++ whole :: after) = .ok (some i) := rfl
  have hmo : announces cut.data 0x02 = true := by decide
  have hdomain : announces cut.data 0x04 = true := by decide
  rw [hmo, hdomain] at herror
  have hshort : FirstShort [5, 2, 2] 8 ⟨2, 1⟩ :=
    .later (by decide) (.later (by decide) (.here (by decide)))
  have hsize : size whole.data = 9 := by decide
  rw [hsize] at hafter
  have hsame := hafter (by decide) [1, 2]
  exact ⟨hbefore, hwhole, hcut, hread, htells i hread, hsize, hsame.trans hread,
    (herror _).2 hshort⟩

end Indication

end Hotspot
