/-
  Hotspot/Toml/Text.lean
  ======================
  **Blanks, comments, strings and keys of TOML.**

  A text is read as a list of characters; each reader returns what it read and the
  characters left.  A line ends with a line feed, before which a carriage return may
  stand; a carriage return anywhere else is an error, as is any other control character
  but the tab.
-/
import Hotspot.Text.Hex

namespace Hotspot.Toml

def isBlankChar (c : Char) : Bool := c = ' ' || c = '\t'

def skipBlank (cs : List Char) : List Char := cs.dropWhile isBlankChar

/-- Whether a character may stand in a comment or in a string as it is. -/
def isPrintable (c : Char) : Bool := c = '\t' || (32 ≤ c.toNat && c.toNat ≠ 127)

def lineEnd? : List Char → Option (List Char)
  | '\n' :: rest => some rest
  | '\r' :: '\n' :: rest => some rest
  | _ => none

def skipBlankLines : List Char → List Char
  | '\r' :: '\n' :: rest => skipBlankLines rest
  | c :: rest => if isBlankChar c || c = '\n' then skipBlankLines rest else c :: rest
  | [] => []

def skipComment (cs : List Char) : List Char :=
  match skipBlank cs with
  | '#' :: rest => rest.dropWhile isPrintable
  | rest => rest

/-- The text after the end of a line that holds at most a comment; the end of the text ends
    a line too. -/
def endLine? (cs : List Char) : Option (List Char) :=
  match skipComment cs with
  | [] => some []
  | rest => lineEnd? rest

/-- The text after blanks, comments and line ends.  Each round takes a line end, of which
    there are at most as many as characters. -/
def skipLines : Nat → List Char → List Char
  | 0, cs => cs
  | fuel + 1, cs =>
    match lineEnd? (skipComment cs) with
    | some rest => skipLines fuel rest
    | none => skipComment cs

def skipSpace (cs : List Char) : List Char := skipLines cs.length cs

/-! ### Strings -/

/-- The character with a number, if the number is that of a character. -/
def charOf? (n : Nat) : Option Char :=
  if n < 0xD800 ∨ (0xDFFF < n ∧ n < 0x110000) then some (Char.ofNat n) else none

def codePoint? (digits : List Char) : Option Char := do
  let values ← digits.mapM Hex.digitValue?
  charOf? (values.foldl (fun n d => 16 * n + d) 0)

def escape? : List Char → Option (Char × List Char)
  | 'b' :: rest => some (Char.ofNat 8, rest)
  | 't' :: rest => some ('\t', rest)
  | 'n' :: rest => some ('\n', rest)
  | 'f' :: rest => some (Char.ofNat 12, rest)
  | 'r' :: rest => some ('\r', rest)
  | '"' :: rest => some ('"', rest)
  | '\\' :: rest => some ('\\', rest)
  | 'u' :: rest =>
    if 4 ≤ rest.length then (codePoint? (rest.take 4)).map fun c => (c, rest.drop 4) else none
  | 'U' :: rest =>
    if 8 ≤ rest.length then (codePoint? (rest.take 8)).map fun c => (c, rest.drop 8) else none
  | _ => none

def basicString : Nat → List Char → Option (List Char × List Char)
  | 0, _ => none
  | fuel + 1, cs =>
    match cs with
    | '"' :: rest => some ([], rest)
    | '\\' :: rest => do
      let (c, rest) ← escape? rest
      let (text, rest) ← basicString fuel rest
      some (c :: text, rest)
    | c :: rest =>
      if isPrintable c then (basicString fuel rest).map fun r => (c :: r.1, r.2) else none
    | [] => none

def literalString (cs : List Char) : Option (List Char × List Char) :=
  let text := cs.takeWhile fun c => isPrintable c && c ≠ '\''
  match cs.drop text.length with
  | '\'' :: rest => some (text, rest)
  | _ => none

/-- The number of quotes at the start, five at most: a string over several lines may end in
    two quotes before the three that close it. -/
def countQuotes (quote : Char) (cs : List Char) : Nat :=
  min 5 (cs.takeWhile (· = quote)).length

/-- A string over several lines, after its opening quotes and the line end behind them.
    Escapes are undone when `escapes` is set; a backslash at the end of a line then takes
    the line end and all blanks and line ends after it. -/
def longString (escapes : Bool) (quote : Char) : Nat → List Char → Option (List Char × List Char)
  | 0, _ => none
  | fuel + 1, cs =>
    let quotes := countQuotes quote cs
    if 3 ≤ quotes then some (List.replicate (quotes - 3) quote, cs.drop quotes)
    else
      match lineEnd? cs with
      | some rest => (longString escapes quote fuel rest).map fun r => ('\n' :: r.1, r.2)
      | none =>
        match cs with
        | '\\' :: rest =>
          if escapes then
            match lineEnd? (skipBlank rest) with
            | some rest => longString escapes quote fuel (skipBlankLines rest)
            | none => do
              let (c, rest) ← escape? rest
              let (text, rest) ← longString escapes quote fuel rest
              some (c :: text, rest)
          else (longString escapes quote fuel rest).map fun r => ('\\' :: r.1, r.2)
        | c :: rest =>
          if isPrintable c then
            (longString escapes quote fuel rest).map fun r => (c :: r.1, r.2)
          else none
        | [] => none

/-- A string over several lines from behind its opening quotes; a line end there is not part
    of it. -/
def openLongString (escapes : Bool) (quote : Char) (cs : List Char) :
    Option (List Char × List Char) :=
  let body := (lineEnd? cs).getD cs
  longString escapes quote (body.length + 1) body

def string? : List Char → Option (String × List Char)
  | '"' :: '"' :: '"' :: rest =>
    (openLongString true '"' rest).map fun r => (String.ofList r.1, r.2)
  | '\'' :: '\'' :: '\'' :: rest =>
    (openLongString false '\'' rest).map fun r => (String.ofList r.1, r.2)
  | '"' :: rest => (basicString (rest.length + 1) rest).map fun r => (String.ofList r.1, r.2)
  | '\'' :: rest => (literalString rest).map fun r => (String.ofList r.1, r.2)
  | _ => none

/-! ### Keys -/

def isKeyChar (c : Char) : Bool := c.isAlphanum || c = '_' || c = '-'

def simpleKey? (cs : List Char) : Option (String × List Char) :=
  match cs with
  | '"' :: rest => (basicString (rest.length + 1) rest).map fun r => (String.ofList r.1, r.2)
  | '\'' :: rest => (literalString rest).map fun r => (String.ofList r.1, r.2)
  | _ =>
    match cs.takeWhile isKeyChar with
    | [] => none
    | name => some (String.ofList name, cs.dropWhile isKeyChar)

/-- Names with dots between them, and the text after them and the blanks behind them. -/
def names? : Nat → List Char → Option (List String × List Char)
  | 0, _ => none
  | fuel + 1, cs => do
    let (name, rest) ← simpleKey? (skipBlank cs)
    match skipBlank rest with
    | '.' :: rest => do
      let (names, rest) ← names? fuel rest
      some (name :: names, rest)
    | rest => some ([name], rest)

/-- Arrays, inline tables and the names of a key nest less deep than this. -/
def maxDepth : Nat := 80

def key? (cs : List Char) : Option (List String × List Char) := do
  let (names, rest) ← names? (cs.length + 1) cs
  if names.length < maxDepth then some (names, rest) else none

end Hotspot.Toml
