/-
  Hotspot/Text/Quoted.lean
  ========================
  **A text quoted inside a message.**

  A message that names a faulty value shows it between double quotes.  Quotes,
  backslashes and the common control characters take a backslash; every other character
  without a visible form is written by its number in braces, so two different values
  never look alike in a message.
-/

namespace Hotspot.Text

/-- Ranges of characters without a visible form: controls, separators other than the
    space, format characters, private use and the tail of each plane. -/
def invisibleRanges : List (Nat × Nat) :=
  [(0x00, 0x1F), (0x7F, 0xA0), (0xAD, 0xAD), (0x61C, 0x61C), (0x1680, 0x1680), (0x180E, 0x180E),
   (0x2000, 0x200F), (0x2028, 0x202F), (0x205F, 0x206F), (0x3000, 0x3000), (0xE000, 0xF8FF),
   (0xFDD0, 0xFDEF), (0xFEFF, 0xFEFF), (0xFFF0, 0xFFFB), (0xFFFE, 0xFFFF), (0xE0000, 0x10FFFF)]

def isVisible (c : Char) : Bool :=
  invisibleRanges.all fun r => c.toNat < r.1 || r.2 < c.toNat

def quotedChar (c : Char) : List Char :=
  if c = '"' then ['\\', '"']
  else if c = '\\' then ['\\', '\\']
  else if c = '\n' then ['\\', 'n']
  else if c = '\r' then ['\\', 'r']
  else if c = '\t' then ['\\', 't']
  else if c.toNat = 0 then ['\\', '0']
  else if isVisible c then [c]
  else ['\\', 'u', '{'] ++ Nat.toDigits 16 c.toNat ++ ['}']

def quoted (s : String) : String :=
  String.ofList (['"'] ++ s.toList.flatMap quotedChar ++ ['"'])

end Hotspot.Text
