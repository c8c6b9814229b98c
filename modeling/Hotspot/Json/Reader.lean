/-
  Hotspot/Json/Reader.lean
  ========================
  **Reading JSON text.**

  Every reader takes the text that is left and returns what it read together with what is
  left after it.  A string is read in two steps: `readPieces` finds its end and undoes the
  escapes, and `joinPieces` puts surrogate pairs together.  Values nest, so their readers
  carry an amount of fuel; `parse?` gives twice the length of the text, and every two
  nested calls take at least one character.
-/
import Hotspot.Json.Basic
import Hotspot.Text.Hex

namespace Hotspot.Json

def isBlankChar (c : Char) : Bool := c = ' ' || c = '\t' || c = '\n' || c = '\r'

def skipBlank (cs : List Char) : List Char := cs.dropWhile isBlankChar

/-! ### Strings -/

/-- What one character or escape of a string stands for: a character, or a 16-bit unit
    given by its number. -/
inductive Piece where
  | char (c : Char)
  | unit (n : Nat)
deriving DecidableEq, Repr

def unitOf? (a b c d : Char) : Option Nat := do
  let a ← Hex.digitValue? a
  let b ← Hex.digitValue? b
  let c ← Hex.digitValue? c
  let d ← Hex.digitValue? d
  some (((a * 16 + b) * 16 + c) * 16 + d)

def shortEscape? (c : Char) : Option Char :=
  if c = '"' then some '"'
  else if c = '\\' then some '\\'
  else if c = '/' then some '/'
  else if c = 'b' then some (Char.ofNat 8)
  else if c = 'f' then some (Char.ofNat 12)
  else if c = 'n' then some '\n'
  else if c = 'r' then some '\r'
  else if c = 't' then some '\t'
  else none

/-- The pieces of a string up to its closing quote.  Controls below the space must not
    stand in a string unescaped. -/
def readPieces : List Char → Option (List Piece × List Char)
  | [] => none
  | '"' :: rest => some ([], rest)
  | '\\' :: 'u' :: a :: b :: c :: d :: rest => do
    let n ← unitOf? a b c d
    let (ps, rest) ← readPieces rest
    some (.unit n :: ps, rest)
  | '\\' :: e :: rest => do
    let c ← shortEscape? e
    let (ps, rest) ← readPieces rest
    some (.char c :: ps, rest)
  | c :: rest =>
    if c = '\\' ∨ c.toNat < 32 then none
    else do
      let (ps, rest) ← readPieces rest
      some (.char c :: ps, rest)

def isHighSurrogate (n : Nat) : Bool := 0xD800 ≤ n && n < 0xDC00

def isLowSurrogate (n : Nat) : Bool := 0xDC00 ≤ n && n < 0xE000

/-- The text that pieces spell; none when a surrogate stands alone. -/
def joinPieces : List Piece → Option (List Char)
  | [] => some []
  | .char c :: rest => (joinPieces rest).map (c :: ·)
  | .unit high :: .unit low :: rest =>
    if isHighSurrogate high && isLowSurrogate low then
      (joinPieces rest).map
        (Char.ofNat (0x10000 + (high - 0xD800) * 0x400 + (low - 0xDC00)) :: ·)
    else if isHighSurrogate high || isLowSurrogate high then none
    else (joinPieces (.unit low :: rest)).map (Char.ofNat high :: ·)
  | .unit n :: rest =>
    if isHighSurrogate n || isLowSurrogate n then none
    else (joinPieces rest).map (Char.ofNat n :: ·)

/-- A string after its opening quote; no text when a surrogate stands alone. -/
def readString (cs : List Char) : Option (Option String × List Char) := do
  let (ps, rest) ← readPieces cs
  some ((joinPieces ps).map String.ofList, rest)

/-! ### Numbers -/

def spanDigits (cs : List Char) : List Char × List Char :=
  (cs.takeWhile Char.isDigit, cs.dropWhile Char.isDigit)

def readFraction : List Char → Option (List Char × List Char)
  | '.' :: rest =>
    match spanDigits rest with
    | ([], _) => none
    | (ds, rest) => some ('.' :: ds, rest)
  | cs => some ([], cs)

def spanSign : List Char → List Char × List Char
  | '+' :: rest => (['+'], rest)
  | '-' :: rest => (['-'], rest)
  | cs => ([], cs)

/-- The exponent at the start: empty, or a letter `e`, a sign or none, and at least one
    digit. -/
def readExponent : List Char → Option (List Char × List Char)
  | c :: rest =>
    if c = 'e' ∨ c = 'E' then
      match spanDigits (spanSign rest).2 with
      | ([], _) => none
      | (ds, after) => some (c :: (spanSign rest).1 ++ ds, after)
    else some ([], c :: rest)
  | [] => some ([], [])

/-- Whether digits have no superfluous zero in front. -/
def isPlainNumeral : List Char → Bool
  | [] => false
  | ['0'] => true
  | '0' :: _ => false
  | _ => true

/-- A number without its sign; `negative` says whether a minus sign stood before it. -/
def readMagnitude (negative : Bool) (cs : List Char) : Option (Json × List Char) := do
  let (ds, rest) := spanDigits cs
  if isPlainNumeral ds then
    let (fraction, rest) ← readFraction rest
    let (exponent, rest) ← readExponent rest
    let n := Nat.ofDigitChars 10 ds 0
    if fraction.isEmpty && exponent.isEmpty && !(negative && n == 0) then
      some (.int (if negative then -(n : Int) else n), rest)
    else
      some (.real ((if negative then ['-'] else []) ++ ds ++ fraction ++ exponent), rest)
  else none

/-! ### Values -/

def ofText : Option String → Json
  | some s => .str s
  | none => .unpaired

/-- The object with the given members; one whose name denotes no text spoils it. -/
def ofMembers (ms : List (Option String × Json)) : Json :=
  match ms.mapM fun m => m.1.map fun name => (name, m.2) with
  | some members => .obj members
  | none => .unpaired

mutual

def readValue : Nat → List Char → Option (Json × List Char)
  | 0, _ => none
  | fuel + 1, cs =>
    match cs with
    | '"' :: rest => do
      let (s, rest) ← readString rest
      some (ofText s, rest)
    | '[' :: rest =>
      match skipBlank rest with
      | ']' :: rest => some (.arr [], rest)
      | rest => do
        let (items, rest) ← readItems fuel rest
        some (.arr items, rest)
    | '{' :: rest =>
      match skipBlank rest with
      | '}' :: rest => some (.obj [], rest)
      | rest => do
        let (members, rest) ← readMembers fuel rest
        some (ofMembers members, rest)
    | 't' :: 'r' :: 'u' :: 'e' :: rest => some (.bool true, rest)
    | 'f' :: 'a' :: 'l' :: 's' :: 'e' :: rest => some (.bool false, rest)
    | 'n' :: 'u' :: 'l' :: 'l' :: rest => some (.null, rest)
    | '-' :: rest => readMagnitude true rest
    | cs => readMagnitude false cs

/-- The items of an array from its first one, and the closing bracket. -/
def readItems : Nat → List Char → Option (List Json × List Char)
  | 0, _ => none
  | fuel + 1, cs => do
    let (item, rest) ← readValue fuel cs
    match skipBlank rest with
    | ',' :: rest => do
      let (items, rest) ← readItems fuel (skipBlank rest)
      some (item :: items, rest)
    | ']' :: rest => some ([item], rest)
    | _ => none

def readMembers : Nat → List Char → Option (List (Option String × Json) × List Char)
  | 0, _ => none
  | fuel + 1, cs =>
    match cs with
    | '"' :: rest => do
      let (name, rest) ← readString rest
      match skipBlank rest with
      | ':' :: rest => do
        let (value, rest) ← readValue fuel (skipBlank rest)
        match skipBlank rest with
        | ',' :: rest => do
          let (members, rest) ← readMembers fuel (skipBlank rest)
          some ((name, value) :: members, rest)
        | '}' :: rest => some ([(name, value)], rest)
        | _ => none
      | _ => none
    | _ => none

end

/-- The value that a text denotes: one value, with nothing but white space around it. -/
def parseChars? (cs : List Char) : Option Json := do
  let (j, rest) ← readValue (2 * cs.length + 2) (skipBlank cs)
  if (skipBlank rest).isEmpty then some j else none

def parse? (text : String) : Option Json := parseChars? text.toList

end Hotspot.Json
