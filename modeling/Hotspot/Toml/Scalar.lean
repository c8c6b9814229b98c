/-
  Hotspot/Toml/Scalar.lean
  ========================
  **Numbers, truth values and dates of TOML.**

  All of them are one word.  Whole numbers must fit into 64 bits with sign.  Numbers with a
  fraction or an exponent are kept by their spelling, and a date or time becomes an object
  with that one member: no setting is either.
-/
import Hotspot.Json.Basic

namespace Hotspot.Toml

/-- Digits with single underscores between them: the digits alone. -/
def digits? (isDigit : Char → Bool) : List Char → Option (List Char)
  | [] => none
  | [c] => if isDigit c then some [c] else none
  | c :: '_' :: rest => if isDigit c then (digits? isDigit rest).map (c :: ·) else none
  | c :: rest => if isDigit c then (digits? isDigit rest).map (c :: ·) else none

/-- Digits without a superfluous zero in front. -/
def decimal? (cs : List Char) : Option (List Char) := do
  let ds ← digits? Char.isDigit cs
  match ds with
  | ['0'] => some ds
  | '0' :: _ => none
  | _ => some ds

def int64? (n : Int) : Option Json :=
  if -0x8000000000000000 ≤ n ∧ n < 0x8000000000000000 then some (.int n) else none

def isHexDigit (c : Char) : Bool := c.isDigit || ('a' ≤ c && c ≤ 'f') || ('A' ≤ c && c ≤ 'F')

def digitValue (c : Char) : Nat :=
  if c.isDigit then c.toNat - '0'.toNat else c.toLower.toNat - 'a'.toNat + 10

def based? (base : Nat) (isDigit : Char → Bool) (cs : List Char) : Option Json := do
  let ds ← digits? isDigit cs
  int64? (ds.foldl (fun n c => base * n + digitValue c) 0)

def signed (cs : List Char) : Int × List Char :=
  match cs with
  | '-' :: rest => (-1, rest)
  | '+' :: rest => (1, rest)
  | _ => (1, cs)

def integer? : List Char → Option Json
  | '0' :: 'x' :: rest => based? 16 isHexDigit rest
  | '0' :: 'o' :: rest => based? 8 (fun c => '0' ≤ c && c ≤ '7') rest
  | '0' :: 'b' :: rest => based? 2 (fun c => c = '0' || c = '1') rest
  | cs => do
    let ds ← decimal? (signed cs).2
    int64? ((signed cs).1 * (Nat.ofDigitChars 10 ds 0 : Int))

def isExponent : Option (List Char) → Bool
  | none => true
  | some cs => (digits? Char.isDigit (signed cs).2).isSome

/-- A word up to a character that satisfies `p`, and the word behind that character if there
    is one. -/
def cut (p : Char → Bool) (cs : List Char) : List Char × Option (List Char) :=
  (cs.takeWhile fun c => !p c, match cs.dropWhile fun c => !p c with
    | [] => none
    | _ :: rest => some rest)

/-- Whether digits times a power of ten round to more than the largest number in 64 bits
    with a binary point: whether they reach the middle between it and the next power of
    two.  The number of digits in front of the point decides unless it is 309. -/
def isTooLarge (digits : List Char) (exponent : Int) : Bool :=
  let ds := digits.dropWhile (· = '0')
  let places := ds.length + exponent
  if ds.isEmpty ∨ places < 309 then false
  else if 309 < places then true
  else
    let n := Nat.ofDigitChars 10 ds 0
    let limit := 0x3FFFFFFFFFFFFF <<< 970
    limit * Nat.pow 10 (-exponent).toNat ≤ n * Nat.pow 10 exponent.toNat

def exponentValue (cs : List Char) : Int :=
  (signed cs).1 * (Nat.ofDigitChars 10 ((signed cs).2.filter Char.isDigit) 0 : Int)

/-- Whether the parts of a number without sign make one that is too large. -/
def overflows (whole : List Char) (fraction exponent : Option (List Char)) : Bool :=
  let places := (fraction.getD []).filter Char.isDigit
  isTooLarge (whole.filter Char.isDigit ++ places)
    ((exponent.map exponentValue).getD 0 - places.length)

/-- A number with a fraction or an exponent, or one of the two numbers with a name.  One
    that is too large is refused, unless it has a minus sign. -/
def float? (cs : List Char) : Option Json :=
  let (sign, magnitude) := signed cs
  if magnitude = ['i', 'n', 'f'] ∨ magnitude = ['n', 'a', 'n'] then some (.real cs)
  else
    let (mantissa, exponent) := cut (fun c => c = 'e' || c = 'E') magnitude
    let (whole, fraction) := cut (· = '.') mantissa
    let hasFraction := match fraction with
      | none => exponent.isSome
      | some ds => (digits? Char.isDigit ds).isSome
    if (decimal? whole).isSome && hasFraction && isExponent exponent &&
        !(sign = 1 && overflows whole fraction exponent) then some (.real cs)
    else none

/-- The shape of a date, a time, or both: digits stand for any digit. -/
def hasShape (shape : List Char) (cs : List Char) : Bool :=
  shape.length = cs.length &&
    (shape.zip cs).all fun (s, c) => if s = '0' then c.isDigit else s = c

def twoDigits (cs : List Char) : Nat := Nat.ofDigitChars 10 (cs.take 2) 0

def daysIn (year month : Nat) : Nat :=
  if month = 2 then
    if year % 4 = 0 ∧ (year % 100 ≠ 0 ∨ year % 400 = 0) then 29 else 28
  else if month = 4 ∨ month = 6 ∨ month = 9 ∨ month = 11 then 30
  else 31

def isDate (cs : List Char) : Bool :=
  hasShape ['0', '0', '0', '0', '-', '0', '0', '-', '0', '0'] cs &&
    (let month := twoDigits (cs.drop 5)
     let day := twoDigits (cs.drop 8)
     1 ≤ month && month ≤ 12 && 1 ≤ day &&
      day ≤ daysIn (Nat.ofDigitChars 10 (cs.take 4) 0) month)

def isTime (cs : List Char) : Bool :=
  hasShape ['0', '0', ':', '0', '0', ':', '0', '0'] (cs.take 8) &&
    (twoDigits cs ≤ 23 && twoDigits (cs.drop 3) ≤ 59 && twoDigits (cs.drop 6) ≤ 60) &&
    match cs.drop 8 with
    | [] => true
    | c :: rest => c = '.' && !rest.isEmpty && rest.all Char.isDigit

def isOffsetTime (cs : List Char) : Bool :=
  match cs.reverse with
  | 'Z' :: rest => isTime rest.reverse
  | 'z' :: rest => isTime rest.reverse
  | _ =>
    let offset := cs.drop (cs.length - 6)
    (hasShape ['+', '0', '0', ':', '0', '0'] offset ||
      hasShape ['-', '0', '0', ':', '0', '0'] offset) &&
      twoDigits (offset.drop 1) ≤ 23 && twoDigits (offset.drop 4) ≤ 59 &&
      isTime (cs.take (cs.length - 6))

def dateTime? (cs : List Char) : Option Json :=
  let day := cs.take 10
  let valid := match cs.drop 10 with
    | [] => isDate day || isTime cs
    | c :: rest =>
      isTime cs || (isDate day && (c = 'T' || c = 't' || c = ' ') &&
        (isTime rest || isOffsetTime rest))
  if valid then some (.obj [("datetime", .str (String.ofList cs))]) else none

def scalar? (cs : List Char) : Option Json :=
  if cs = ['t', 'r', 'u', 'e'] then some (.bool true)
  else if cs = ['f', 'a', 'l', 's', 'e'] then some (.bool false)
  else integer? cs <|> float? cs <|> dateTime? cs

def isWordChar (c : Char) : Bool :=
  c.isAlphanum || c = '+' || c = '-' || c = '_' || c = '.' || c = ':'

/-- The word at the start of a text.  A blank between a date and a time belongs to it. -/
def word (cs : List Char) : List Char × List Char :=
  let first := cs.takeWhile isWordChar
  match cs.dropWhile isWordChar with
  | ' ' :: c :: rest =>
    if isDate first && c.isDigit then
      (first ++ ' ' :: (c :: rest).takeWhile isWordChar, (c :: rest).dropWhile isWordChar)
    else (first, ' ' :: c :: rest)
  | rest => (first, rest)

end Hotspot.Toml
