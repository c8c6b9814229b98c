/-
  Hotspot/Proofs/JsonText.lean
  ============================
  **A printed value is read back.**

  Printing and reading are told apart by layouts, escapes and the end of a number.  A layout only
  puts blanks between tokens, where the reader skips them.  An escape is read as the character it
  was written for (`readString_print`): as that character, or as a unit below all surrogates.  A
  whole number is read to its end because no token goes on with a digit, a point or an exponent
  (`EndsNumber`).

  A value is `Readable` when it is read back from its text whatever follows.  Arrays and objects
  of readable values are readable, so a type of records needs no induction of its own.  Every two
  nested calls of the reader take a character, which is why fuel for twice the length of the text
  is enough.
-/
import Mathlib.Data.List.Forall2
import Hotspot.Json.Printer
import Hotspot.Json.Reader

namespace Hotspot.Json

/-- What is written item by item is read item by item. -/
theorem mapM_map_eq_some {α β : Type} {write : α → β} {read? : β → Option α}
    (h : ∀ a, read? (write a) = some a) (as : List α) : (as.map write).mapM read? = some as := by
  induction as with
  | nil => rfl
  | cons a as ih =>
    rw [List.map_cons, List.mapM_cons, h, ih]
    rfl

/-! ### Blanks -/

theorem isBlankChar_of_mem_lineBreak {l : Layout} {depth : Nat} {c : Char}
    (h : c ∈ l.lineBreak depth) : isBlankChar c = true := by
  cases l with
  | compact => cases h
  | indented =>
    rcases List.mem_cons.1 h with rfl | h
    · rfl
    · rw [List.eq_of_mem_replicate h]
      rfl

/-- A layout puts nothing but blanks before a token. -/
theorem skipBlank_lineBreak (l : Layout) (depth : Nat) (cs : List Char) :
    skipBlank (l.lineBreak depth ++ cs) = skipBlank cs :=
  List.dropWhile_append_of_pos fun _ => isBlankChar_of_mem_lineBreak

theorem skipBlank_cons {c : Char} (h : isBlankChar c = false) (cs : List Char) :
    skipBlank (c :: cs) = c :: cs :=
  List.dropWhile_cons_of_neg (Bool.eq_false_iff.1 h)

/-! ### Strings -/

/-- A piece that a character of a printed string is read as. -/
inductive Piece.Writes : Piece → Char → Prop
  | char (c : Char) : Writes (.char c) c
  | unit {c : Char} (h : c.toNat < 32) : Writes (.unit c.toNat) c

theorem unitOf?_control {n : Nat} (h : n < 32) :
    unitOf? '0' '0' (Nat.digitChar (n / 16)) (Nat.digitChar (n % 16)) = some n := by
  have hall : ∀ n < 32,
      unitOf? '0' '0' (Nat.digitChar (n / 16)) (Nat.digitChar (n % 16)) = some n := by decide
  exact hall n h

def Piece.before (piece : Piece) (read : List Piece × List Char) : List Piece × List Char :=
  (piece :: read.1, read.2)

theorem readPieces_short {e c : Char} (h : shortEscape? e = some c) (hu : e ≠ 'u')
    (rest : List Char) :
    readPieces ('\\' :: e :: rest) = (readPieces rest).map (Piece.char c).before := by
  rw [readPieces, h]
  · cases readPieces rest <;> rfl
  · intro _ _ _ _ _ he
    exact absurd he hu

theorem readPieces_unit {a b c d : Char} {n : Nat} (h : unitOf? a b c d = some n)
    (rest : List Char) :
    readPieces ('\\' :: 'u' :: a :: b :: c :: d :: rest) =
      (readPieces rest).map (Piece.unit n).before := by
  rw [readPieces, h]
  cases readPieces rest <;> rfl

theorem readPieces_plain {c : Char} (hquote : c ≠ '"') (hslash : c ≠ '\\') (hc : ¬ c.toNat < 32)
    (rest : List Char) :
    readPieces (c :: rest) = (readPieces rest).map (Piece.char c).before := by
  rw [readPieces, if_neg (not_or.2 ⟨hslash, hc⟩)]
  · cases readPieces rest <;> rfl
  · exact hquote
  · intro _ _ _ _ _ he
    exact absurd he hslash
  · intro _ _ he
    exact absurd he hslash

/-- One character of a printed string is read as one piece. -/
theorem readPieces_escapeChar (c : Char) : ∃ piece : Piece, piece.Writes c ∧
    ∀ rest, readPieces (escapeChar c ++ rest) = (readPieces rest).map piece.before := by
  unfold escapeChar
  split
  · subst c
    exact ⟨.char _, .char _, readPieces_short (by decide) (by decide)⟩
  split
  · subst c
    exact ⟨.char _, .char _, readPieces_short (by decide) (by decide)⟩
  split
  · subst c
    exact ⟨.char _, .char _, readPieces_short (by decide) (by decide)⟩
  split
  · subst c
    exact ⟨.char _, .char _, readPieces_short (by decide) (by decide)⟩
  split
  · subst c
    exact ⟨.char _, .char _, readPieces_short (by decide) (by decide)⟩
  split
  · rename_i h
    have hc : c = Char.ofNat 8 := by rw [← h, Char.ofNat_toNat]
    subst hc
    exact ⟨.char _, .char _, readPieces_short (by decide) (by decide)⟩
  split
  · rename_i h
    have hc : c = Char.ofNat 12 := by rw [← h, Char.ofNat_toNat]
    subst hc
    exact ⟨.char _, .char _, readPieces_short (by decide) (by decide)⟩
  split
  · rename_i h
    exact ⟨.unit c.toNat, .unit h, readPieces_unit (unitOf?_control h)⟩
  · rename_i hquote hslash _ _ _ _ _ hc
    exact ⟨.char c, .char c, readPieces_plain hquote hslash hc⟩

theorem readPieces_flatMap (cs rest : List Char) :
    ∃ pieces : List Piece, List.Forall₂ Piece.Writes pieces cs ∧
      readPieces (cs.flatMap escapeChar ++ '"' :: rest) = some (pieces, rest) := by
  induction cs with
  | nil => exact ⟨[], .nil, rfl⟩
  | cons c cs ih =>
    obtain ⟨piece, hwrites, hread⟩ := readPieces_escapeChar c
    obtain ⟨pieces, hall, htail⟩ := ih
    refine ⟨piece :: pieces, .cons hwrites hall, ?_⟩
    rw [List.flatMap_cons, List.append_assoc, hread, htail]
    rfl

/-- A unit below all surrogates is a character by itself, whatever stands next to it. -/
theorem joinPieces_unit {n : Nat} (h : n < 32) (rest : List Piece) :
    joinPieces (.unit n :: rest) = (joinPieces rest).map (Char.ofNat n :: ·) := by
  have hhigh : isHighSurrogate n = false := by
    rw [isHighSurrogate, Bool.and_eq_false_iff]
    exact .inl (decide_eq_false (by omega))
  have hlow : isLowSurrogate n = false := by
    rw [isLowSurrogate, Bool.and_eq_false_iff]
    exact .inl (decide_eq_false (by omega))
  cases rest with
  | nil => simp [joinPieces, hhigh, hlow]
  | cons piece rest =>
    cases piece with
    | char c => simp [joinPieces, hhigh, hlow]
    | unit m => simp [joinPieces, hhigh, hlow]

theorem joinPieces_of_writes {pieces : List Piece} {cs : List Char}
    (h : List.Forall₂ Piece.Writes pieces cs) : joinPieces pieces = some cs := by
  induction h with
  | nil => rfl
  | cons hwrites _ ih =>
    cases hwrites with
    | char c => rw [joinPieces, ih, Option.map_some]
    | unit hc => rw [joinPieces_unit hc, ih, Option.map_some, Char.ofNat_toNat]

/-- A printed string without its opening quote is read as that string. -/
theorem readString_print (s : String) (rest : List Char) :
    readString (s.toList.flatMap escapeChar ++ '"' :: rest) = some (some s, rest) := by
  obtain ⟨pieces, hall, hread⟩ := readPieces_flatMap s.toList rest
  rw [readString, hread]
  show some ((joinPieces pieces).map String.ofList, rest) = _
  rw [joinPieces_of_writes hall, Option.map_some, String.ofList_toList]

/-! ### Whole numbers -/

/-- What may follow a whole number: nothing that would go on with it. -/
def EndsNumber (rest : List Char) : Prop :=
  ∀ c ∈ rest.head?, c.isDigit = false ∧ c ≠ '.' ∧ c ≠ 'e' ∧ c ≠ 'E'

theorem EndsNumber.cons {c : Char} (h : c.isDigit = false ∧ c ≠ '.' ∧ c ≠ 'e' ∧ c ≠ 'E')
    (cs : List Char) : EndsNumber (c :: cs) := by
  intro d hd
  rw [← Option.some.inj hd]
  exact h

theorem spanDigits_append {ds rest : List Char} (hds : ∀ c ∈ ds, c.isDigit = true)
    (hrest : EndsNumber rest) : spanDigits (ds ++ rest) = (ds, rest) := by
  rw [spanDigits, List.takeWhile_append_of_pos hds, List.dropWhile_append_of_pos hds]
  cases rest with
  | nil => simp
  | cons c cs =>
    have hc : ¬ c.isDigit = true := by simp [(hrest c rfl).1]
    rw [List.takeWhile_cons_of_neg hc, List.dropWhile_cons_of_neg hc, List.append_nil]

theorem readFraction_of_endsNumber {rest : List Char} (h : EndsNumber rest) :
    readFraction rest = some ([], rest) := by
  cases rest with
  | nil => rfl
  | cons c cs =>
    rw [readFraction]
    intro _ he
    exact absurd (List.cons.inj he).1 (h c rfl).2.1

theorem readExponent_of_endsNumber {rest : List Char} (h : EndsNumber rest) :
    readExponent rest = some ([], rest) := by
  cases rest with
  | nil => rfl
  | cons c cs =>
    rw [readExponent, if_neg]
    exact not_or.2 ⟨(h c rfl).2.2.1, (h c rfl).2.2.2⟩

/-- Only zero is written with a zero in front. -/
theorem exists_toDigits_eq_cons (n : Nat) : ∃ d ds, Nat.toDigits 10 n = d :: ds ∧
    d.isDigit = true ∧ (d = '0' → n = 0) := by
  induction n using Nat.strongRecOn with
  | ind n ih =>
    rw [Nat.toDigits_eq_if (by decide)]
    split
    · rename_i hlt
      refine ⟨_, _, rfl, ?_, ?_⟩
      · have hall : ∀ n < 10, (Nat.digitChar n).isDigit = true := by decide
        exact hall n hlt
      · have hall : ∀ n < 10, Nat.digitChar n = '0' → n = 0 := by decide
        exact hall n hlt
    · rename_i hge
      obtain ⟨d, ds, hds, hdigit, hzero⟩ := ih (n / 10) (by omega)
      refine ⟨d, ds ++ [Nat.digitChar (n % 10)], by rw [hds]; rfl, hdigit, ?_⟩
      intro hd
      have := hzero hd
      omega

theorem isPlainNumeral_toDigits (n : Nat) : isPlainNumeral (Nat.toDigits 10 n) = true := by
  obtain ⟨d, ds, hds, -, hzero⟩ := exists_toDigits_eq_cons n
  by_cases hd : d = '0'
  · rw [hzero hd]
    rfl
  · rw [hds, isPlainNumeral]
    · simp
    · intro he
      exact hd (List.cons.inj he).1
    · intro _ he
      exact hd (List.cons.inj he).1

theorem readMagnitude_toDigits {negative : Bool} {n : Nat} {rest : List Char}
    (hzero : negative = true → n ≠ 0) (hrest : EndsNumber rest) :
    readMagnitude negative (Nat.toDigits 10 n ++ rest) =
      some (.int (if negative then -(n : Int) else n), rest) := by
  have hdigits : ∀ c ∈ Nat.toDigits 10 n, c.isDigit = true :=
    fun c hc => Nat.isDigit_of_mem_toDigits (by decide) (by decide) hc
  have hvalue : Nat.ofDigitChars 10 (Nat.toDigits 10 n) 0 = n := by
    simp
  have hsign : (negative && n == 0) = false := by
    cases negative with
    | false => rfl
    | true => simpa using hzero rfl
  rw [readMagnitude, spanDigits_append hdigits hrest]
  simp [isPlainNumeral_toDigits, readFraction_of_endsNumber hrest,
    readExponent_of_endsNumber hrest, hvalue, hsign]

theorem readValue_of_isDigit {d : Char} (h : d.isDigit = true) (fuel : Nat) (cs : List Char) :
    readValue (fuel + 1) (d :: cs) = readMagnitude false (d :: cs) := by
  rw [readValue]
  all_goals
    intros
    rename_i he
    rw [(List.cons.inj he).1] at h
    exact absurd h (by decide)

/-! ### Values -/

/-- A value that is read back from its text, whatever follows the text.  The text begins with a
    character that the reader neither skips nor takes for the end of an array. -/
structure Readable (j : Json) : Prop where
  begins : ∀ l depth, ∃ c cs, print l depth j = c :: cs ∧ isBlankChar c = false ∧ c ≠ ']'
  reads : ∀ l depth fuel rest, 2 * (print l depth j).length ≤ fuel → EndsNumber rest →
    readValue fuel (print l depth j ++ rest) = some (j, rest)

/-- A value whose text has no parts is read in one call. -/
theorem Readable.of_one_call {j : Json} {c : Char} {cs : List Char}
    (hprint : ∀ l depth, print l depth j = c :: cs) (hc : isBlankChar c = false ∧ c ≠ ']')
    (h : ∀ fuel rest, EndsNumber rest → readValue (fuel + 1) (c :: cs ++ rest) = some (j, rest)) :
    Readable j where
  begins l depth := ⟨c, cs, hprint l depth, hc⟩
  reads l depth fuel rest hfuel hrest := by
    rw [hprint, List.length_cons] at hfuel
    rw [hprint, ← Nat.sub_add_cancel (show 1 ≤ fuel by omega)]
    exact h _ rest hrest

theorem readable_null : Readable .null :=
  .of_one_call (fun _ _ => by rw [print]) (by decide) fun _ _ _ => by simp [readValue]

theorem readable_bool (b : Bool) : Readable (.bool b) := by
  cases b with
  | true =>
    exact .of_one_call (fun _ _ => by rw [print]) (by decide) fun _ _ _ => by simp [readValue]
  | false =>
    exact .of_one_call (fun _ _ => by rw [print]) (by decide) fun _ _ _ => by simp [readValue]

theorem readable_str (s : String) : Readable (.str s) := by
  refine .of_one_call (fun _ _ => by rw [print, printString]) (by decide) fun fuel rest _ => ?_
  rw [List.cons_append, List.append_assoc, readValue, List.singleton_append, readString_print]
  rfl

theorem not_blank_of_isDigit {d : Char} (h : d.isDigit = true) :
    isBlankChar d = false ∧ d ≠ ']' := by
  constructor
  · rw [Bool.eq_false_iff]
    intro hblank
    simp only [isBlankChar, Bool.or_eq_true, decide_eq_true_eq] at hblank
    rcases hblank with ((rfl | rfl) | rfl) | rfl <;> exact absurd h (by decide)
  · rintro rfl
    exact absurd h (by decide)

theorem readable_int (n : Int) : Readable (.int n) := by
  cases n with
  | ofNat n =>
    obtain ⟨d, ds, hds, hdigit, -⟩ := exists_toDigits_eq_cons n
    refine .of_one_call (fun _ _ => by rw [print, printInt, hds]) (not_blank_of_isDigit hdigit)
      fun fuel rest hrest => ?_
    rw [List.cons_append, readValue_of_isDigit hdigit, ← List.cons_append, ← hds,
      readMagnitude_toDigits (by simp) hrest]
    rfl
  | negSucc n =>
    refine .of_one_call (fun _ _ => by rw [print, printInt]) (by decide) fun fuel rest hrest => ?_
    rw [List.cons_append, readValue, readMagnitude_toDigits (by simp) hrest]
    rfl

theorem Readable.skipBlank {j : Json} (h : Readable j) (l : Layout) (depth : Nat)
    (cs : List Char) : skipBlank (print l depth j ++ cs) = print l depth j ++ cs := by
  obtain ⟨c, rest, hprint, hblank, -⟩ := h.begins l depth
  rw [hprint]
  exact skipBlank_cons hblank _

theorem Readable.length_pos {j : Json} (h : Readable j) (l : Layout) (depth : Nat) :
    0 < (print l depth j).length := by
  obtain ⟨c, rest, hprint, -⟩ := h.begins l depth
  rw [hprint]
  exact Nat.succ_pos _

/-- Neither a line break nor a closing bracket or brace goes on with a number. -/
theorem endsNumber_lineBreak (l : Layout) (depth : Nat) {c : Char}
    (h : c.isDigit = false ∧ c ≠ '.' ∧ c ≠ 'e' ∧ c ≠ 'E') (cs : List Char) :
    EndsNumber (l.lineBreak depth ++ c :: cs) := by
  cases l with
  | compact => exact .cons h cs
  | indented => exact .cons (by decide) _

/-! ### Arrays -/

section Arrays

variable {fuel : Nat} {cs rest rest' after : List Char} {item : Json} {items : List Json}

theorem readItems_last (hitem : readValue fuel cs = some (item, rest))
    (hend : skipBlank rest = ']' :: after) : readItems (fuel + 1) cs = some ([item], after) := by
  rw [readItems, hitem]
  simp [hend]

theorem readItems_next (hitem : readValue fuel cs = some (item, rest))
    (hcomma : skipBlank rest = ',' :: rest')
    (hitems : readItems fuel (skipBlank rest') = some (items, after)) :
    readItems (fuel + 1) cs = some (item :: items, after) := by
  rw [readItems, hitem]
  simp [hcomma, hitems]

theorem readValue_arr (hbegins : ∀ cs', skipBlank rest ≠ ']' :: cs')
    (hitems : readItems fuel (skipBlank rest) = some (items, after)) :
    readValue (fuel + 1) ('[' :: rest) = some (.arr items, after) := by
  rw [readValue]
  split
  · rename_i h
    exact absurd h (hbegins _)
  · rw [hitems]
    rfl

variable (l : Layout) (depth : Nat)

theorem endsNumber_printMoreItems (items : List Json) (rest : List Char) :
    EndsNumber (printMoreItems l depth items ++ rest) := by
  cases items with
  | nil =>
    rw [printMoreItems, List.append_assoc]
    exact endsNumber_lineBreak l depth (by decide) rest
  | cons j items =>
    rw [printMoreItems]
    exact .cons (by decide) _

theorem length_printMoreItems_pos (items : List Json) :
    0 < (printMoreItems l depth items).length := by
  cases items <;> simp [printMoreItems]

theorem readValue_item {j : Json} (hj : Readable j) (items : List Json) (rest : List Char)
    (hfuel : 2 * ((print l (depth + 1) j).length + (printMoreItems l depth items).length)
      ≤ fuel + 1) :
    readValue fuel (print l (depth + 1) j ++ (printMoreItems l depth items ++ rest)) =
      some (j, printMoreItems l depth items ++ rest) := by
  have hmore := length_printMoreItems_pos l depth items
  exact hj.reads l (depth + 1) fuel _ (by omega) (endsNumber_printMoreItems l depth items rest)

/-- The items of an array are read to its closing bracket.  The induction is on the items after
    the first; the first takes one call of the fuel and leaves the rest its share. -/
theorem readItems_print {j : Json} {items : List Json} (hj : Readable j)
    (hitems : ∀ i ∈ items, Readable i) (fuel : Nat) (rest : List Char)
    (hfuel : 2 * ((print l (depth + 1) j).length + (printMoreItems l depth items).length)
      ≤ fuel + 1) :
    readItems (fuel + 1) (print l (depth + 1) j ++ (printMoreItems l depth items ++ rest)) =
      some (j :: items, rest) := by
  induction items generalizing j fuel with
  | nil =>
    refine readItems_last (readValue_item l depth hj [] rest hfuel) ?_
    rw [printMoreItems, List.append_assoc, skipBlank_lineBreak]
    exact skipBlank_cons (by decide) _
  | cons i items ih =>
    obtain ⟨hi, hitems⟩ := List.forall_mem_cons.1 hitems
    have hcomma : skipBlank (printMoreItems l depth (i :: items) ++ rest) =
        ',' :: (l.lineBreak (depth + 1) ++
          (print l (depth + 1) i ++ (printMoreItems l depth items ++ rest))) := by
      rw [printMoreItems, List.cons_append, skipBlank_cons (by decide), List.append_assoc,
        List.append_assoc]
    refine readItems_next (readValue_item l depth hj (i :: items) rest hfuel) hcomma ?_
    have hpos := hj.length_pos l (depth + 1)
    simp only [printMoreItems, List.length_cons, List.length_append] at hfuel
    obtain ⟨fuel, rfl⟩ : ∃ n, fuel = n + 1 := ⟨fuel - 1, by omega⟩
    rw [skipBlank_lineBreak, hi.skipBlank]
    exact ih hi hitems fuel (by omega)

theorem readable_arr {items : List Json} (h : ∀ i ∈ items, Readable i) :
    Readable (.arr items) where
  begins l depth := ⟨_, _, by rw [print], by decide⟩
  reads l depth fuel rest hfuel hrest := by
    rw [print, List.length_cons] at hfuel
    obtain ⟨fuel, rfl⟩ : ∃ n, fuel = n + 2 := ⟨fuel - 2, by omega⟩
    rw [print, List.cons_append]
    cases items with
    | nil =>
      rw [readValue]
      rfl
    | cons j items =>
      obtain ⟨hj, hitems⟩ := List.forall_mem_cons.1 h
      simp only [printItems, List.length_append] at hfuel
      have hskip : skipBlank (printItems l depth (j :: items) ++ rest) =
          print l (depth + 1) j ++ (printMoreItems l depth items ++ rest) := by
        rw [printItems, List.append_assoc, List.append_assoc, skipBlank_lineBreak, hj.skipBlank]
      refine readValue_arr (fun cs' => ?_) ?_
      · obtain ⟨c, cs, hprint, -, hc⟩ := hj.begins l (depth + 1)
        rw [hskip, hprint]
        exact fun he => hc (List.cons.inj he).1
      · rw [hskip]
        exact readItems_print l depth hj hitems fuel rest (by omega)

end Arrays

/-! ### Objects -/

section Objects

def memberThen (l : Layout) (depth : Nat) (name : String) (j : Json) (rest : List Char) :
    List Char :=
  '"' :: (name.toList.flatMap escapeChar ++ '"' ::
    (l.colon ++ (print l (depth + 1) j ++ rest)))

variable {l : Layout} {depth fuel : Nat} {name : String} {j : Json} {rest : List Char}

theorem printMember_append (l : Layout) (depth : Nat) (name : String) (j : Json)
    (more rest : List Char) :
    printString name ++ l.colon ++ print l (depth + 1) j ++ more ++ rest =
      memberThen l depth name j (more ++ rest) := by
  simp [printString, memberThen]

theorem skipBlank_memberThen :
    skipBlank (memberThen l depth name j rest) = memberThen l depth name j rest :=
  skipBlank_cons (by decide) _

/-- Between a name and its value stand a colon and blanks. -/
theorem skipBlank_colon (hj : Readable j) (l : Layout) (depth : Nat) (rest : List Char) :
    ∃ blank, skipBlank (l.colon ++ (print l (depth + 1) j ++ rest)) =
        ':' :: (blank ++ (print l (depth + 1) j ++ rest)) ∧
      skipBlank (blank ++ (print l (depth + 1) j ++ rest)) = print l (depth + 1) j ++ rest := by
  cases l with
  | compact => exact ⟨[], skipBlank_cons (by decide) _, hj.skipBlank _ _ _⟩
  | indented => exact ⟨[' '], skipBlank_cons (by decide) _, hj.skipBlank _ _ _⟩

variable {rest' after : List Char} {members : List (Option String × Json)} (hj : Readable j)
  (hfuel : 2 * (print l (depth + 1) j).length ≤ fuel) (hrest : EndsNumber rest)

include hj hfuel hrest in
theorem readMembers_last (hend : skipBlank rest = '}' :: after) :
    readMembers (fuel + 1) (memberThen l depth name j rest) = some ([(some name, j)], after) := by
  obtain ⟨blank, hcolon, hblank⟩ := skipBlank_colon hj l depth rest
  rw [memberThen, readMembers, readString_print]
  simp [hcolon, hblank, hj.reads l (depth + 1) fuel rest hfuel hrest, hend]

include hj hfuel hrest in
theorem readMembers_next (hcomma : skipBlank rest = ',' :: rest')
    (hmembers : readMembers fuel (skipBlank rest') = some (members, after)) :
    readMembers (fuel + 1) (memberThen l depth name j rest) =
      some ((some name, j) :: members, after) := by
  obtain ⟨blank, hcolon, hblank⟩ := skipBlank_colon hj l depth rest
  rw [memberThen, readMembers, readString_print]
  simp [hcolon, hblank, hj.reads l (depth + 1) fuel rest hfuel hrest, hcomma, hmembers]

theorem readValue_obj (hbegins : ∀ cs', skipBlank rest ≠ '}' :: cs')
    (hmembers : readMembers fuel (skipBlank rest) = some (members, after)) :
    readValue (fuel + 1) ('{' :: rest) = some (ofMembers members, after) := by
  rw [readValue]
  split
  · rename_i h
    exact absurd h (hbegins _)
  · rw [hmembers]
    rfl

theorem ofMembers_map (members : List (String × Json)) :
    ofMembers (members.map fun m => (some m.1, m.2)) = .obj members := by
  have hnames : (members.map fun m => (some m.1, m.2)).mapM
      (fun m : Option String × Json => m.1.map fun name => (name, m.2)) = some members := by
    refine mapM_map_eq_some (fun m => ?_) members
    rfl
  rw [ofMembers, hnames]

variable (l depth)

theorem endsNumber_printMoreMembers (members : List (String × Json)) (rest : List Char) :
    EndsNumber (printMoreMembers l depth members ++ rest) := by
  cases members with
  | nil =>
    rw [printMoreMembers, List.append_assoc]
    exact endsNumber_lineBreak l depth (by decide) rest
  | cons m members =>
    rw [printMoreMembers]
    exact .cons (by decide) _

theorem length_printMoreMembers_pos (members : List (String × Json)) :
    0 < (printMoreMembers l depth members).length := by
  cases members <;> simp [printMoreMembers]

/-- The members of an object are read to its closing brace. -/
theorem readMembers_print (name : String) {j : Json} {members : List (String × Json)}
    (hj : Readable j) (hmembers : ∀ m ∈ members, Readable m.2) (fuel : Nat) (rest : List Char)
    (hfuel : 2 * ((print l (depth + 1) j).length + (printMoreMembers l depth members).length)
      ≤ fuel + 1) :
    readMembers (fuel + 1) (memberThen l depth name j (printMoreMembers l depth members ++ rest)) =
      some (((name, j) :: members).map fun m => (some m.1, m.2), rest) := by
  induction members generalizing name j fuel with
  | nil =>
    have hmore := length_printMoreMembers_pos l depth []
    refine readMembers_last hj (by omega) (endsNumber_printMoreMembers l depth [] rest) ?_
    rw [printMoreMembers, List.append_assoc, skipBlank_lineBreak, List.singleton_append,
      skipBlank_cons (by decide)]
  | cons m members ih =>
    obtain ⟨hm, hmembers⟩ := List.forall_mem_cons.1 hmembers
    have hmore := length_printMoreMembers_pos l depth (m :: members)
    have hpos := hj.length_pos l (depth + 1)
    have hnumber := endsNumber_printMoreMembers l depth (m :: members) rest
    have hcomma : skipBlank (printMoreMembers l depth (m :: members) ++ rest) =
        ',' :: (l.lineBreak (depth + 1) ++ printString m.1 ++ l.colon ++
          print l (depth + 1) m.2 ++ printMoreMembers l depth members ++ rest) := by
      rw [printMoreMembers, List.cons_append, skipBlank_cons (by decide)]
    have htext : skipBlank (l.lineBreak (depth + 1) ++ printString m.1 ++ l.colon ++
        print l (depth + 1) m.2 ++ printMoreMembers l depth members ++ rest) =
        memberThen l depth m.1 m.2 (printMoreMembers l depth members ++ rest) := by
      rw [← skipBlank_memberThen, ← printMember_append]
      simp only [List.append_assoc, skipBlank_lineBreak]
    simp only [printMoreMembers, List.length_cons, List.length_append] at hfuel
    obtain ⟨fuel, rfl⟩ : ∃ n, fuel = n + 1 := ⟨fuel - 1, by omega⟩
    refine readMembers_next hj (by omega) hnumber hcomma ?_
    rw [htext]
    exact ih m.1 hm hmembers fuel (by omega)

theorem readable_obj {members : List (String × Json)} (h : ∀ m ∈ members, Readable m.2) :
    Readable (.obj members) where
  begins l depth := ⟨_, _, by rw [print], by decide⟩
  reads l depth fuel rest hfuel hrest := by
    rw [print, List.length_cons] at hfuel
    obtain ⟨fuel, rfl⟩ : ∃ n, fuel = n + 2 := ⟨fuel - 2, by omega⟩
    rw [print, List.cons_append]
    cases members with
    | nil =>
      rw [readValue]
      rfl
    | cons m members =>
      obtain ⟨hm, hmembers⟩ := List.forall_mem_cons.1 h
      simp only [printMembers, List.length_append] at hfuel
      have htext : skipBlank (printMembers l depth (m :: members) ++ rest) =
          memberThen l depth m.1 m.2 (printMoreMembers l depth members ++ rest) := by
        rw [← skipBlank_memberThen, ← printMember_append, printMembers]
        simp only [List.append_assoc, skipBlank_lineBreak]
      rw [← ofMembers_map]
      refine readValue_obj (fun cs' => ?_) ?_
      · rw [htext]
        exact fun he => absurd (List.cons.inj he).1 (by decide)
      · rw [htext]
        exact readMembers_print l depth m.1 hm hmembers fuel rest (by omega)

end Objects

/-! ### Texts -/

def Layout.text : Layout → Json → String
  | .compact => Json.compact
  | .indented => Json.indented

theorem Layout.text_eq (l : Layout) (j : Json) : l.text j = String.ofList (print l 0 j) := by
  cases l <;> rfl

/-- A readable value is what its text denotes, in either layout. -/
theorem Readable.parse?_text {j : Json} (h : Readable j) (l : Layout) :
    parse? (l.text j) = some j := by
  have hread := h.reads l 0 (2 * (print l 0 j).length + 2) [] (by omega) fun _ hc => by cases hc
  have hblank := h.skipBlank l 0 []
  rw [List.append_nil] at hread hblank
  rw [l.text_eq, parse?, String.toList_ofList, parseChars?, hblank, hread]
  rfl

end Hotspot.Json
