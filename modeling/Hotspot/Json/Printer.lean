/-
  Hotspot/Json/Printer.lean
  =========================
  **JSON as text, on one line or indented.**

  The two layouts differ only in what stands between the tokens: nothing, or line breaks
  with two blanks a level and one blank after a colon.  Empty arrays and objects stay on
  one line in both.  Members are written in the order of the value, so the order of
  fields is decided by whoever builds it.
-/
import Hotspot.Json.Basic

namespace Hotspot.Json

/-- How much white space is written. -/
inductive Layout where
  | compact
  | indented
deriving DecidableEq, Repr

/-- What precedes a token that stands at nesting depth `depth` on a line of its own. -/
def Layout.lineBreak (depth : Nat) : Layout → List Char
  | .compact => []
  | .indented => '\n' :: List.replicate (2 * depth) ' '

def Layout.colon : Layout → List Char
  | .compact => [':']
  | .indented => [':', ' ']

/-! ### Strings and numbers -/

/-- One character of a string.  Only quotes, backslashes and the controls below the space
    are escaped; the latter by their short escape if they have one. -/
def escapeChar (c : Char) : List Char :=
  if c = '"' then ['\\', '"']
  else if c = '\\' then ['\\', '\\']
  else if c = '\n' then ['\\', 'n']
  else if c = '\r' then ['\\', 'r']
  else if c = '\t' then ['\\', 't']
  else if c.toNat = 8 then ['\\', 'b']
  else if c.toNat = 12 then ['\\', 'f']
  else if c.toNat < 32 then
    ['\\', 'u', '0', '0', Nat.digitChar (c.toNat / 16), Nat.digitChar (c.toNat % 16)]
  else [c]

def printString (s : String) : List Char :=
  '"' :: (s.toList.flatMap escapeChar ++ ['"'])

def printInt : Int → List Char
  | .ofNat n => Nat.toDigits 10 n
  | .negSucc n => '-' :: Nat.toDigits 10 (n + 1)

/-! ### Values -/

mutual

/-- The text of a value whose first token stands at nesting depth `depth`. -/
def print (l : Layout) (depth : Nat) : Json → List Char
  | .null => ['n', 'u', 'l', 'l']
  | .bool true => ['t', 'r', 'u', 'e']
  | .bool false => ['f', 'a', 'l', 's', 'e']
  | .int n => printInt n
  | .real spelling => spelling
  | .str s => printString s
  | .arr items => '[' :: printItems l depth items
  | .obj members => '{' :: printMembers l depth members
  | .unpaired => ['"', '\\', 'u', 'd', '8', '0', '0', '"']

def printItems (l : Layout) (depth : Nat) : List Json → List Char
  | [] => [']']
  | j :: rest => l.lineBreak (depth + 1) ++ print l (depth + 1) j ++ printMoreItems l depth rest

def printMoreItems (l : Layout) (depth : Nat) : List Json → List Char
  | [] => l.lineBreak depth ++ [']']
  | j :: rest =>
    ',' :: (l.lineBreak (depth + 1) ++ print l (depth + 1) j ++ printMoreItems l depth rest)

def printMembers (l : Layout) (depth : Nat) : List (String × Json) → List Char
  | [] => ['}']
  | (name, j) :: rest =>
    l.lineBreak (depth + 1) ++ printString name ++ l.colon ++ print l (depth + 1) j ++
      printMoreMembers l depth rest

def printMoreMembers (l : Layout) (depth : Nat) : List (String × Json) → List Char
  | [] => l.lineBreak depth ++ ['}']
  | (name, j) :: rest =>
    ',' :: (l.lineBreak (depth + 1) ++ printString name ++ l.colon ++ print l (depth + 1) j ++
      printMoreMembers l depth rest)

end

def compact (j : Json) : String := String.ofList (print .compact 0 j)

def indented (j : Json) : String := String.ofList (print .indented 0 j)

end Hotspot.Json
