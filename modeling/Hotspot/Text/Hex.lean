/-
  Hotspot/Text/Hex.lean
  =====================
  **Byte strings as hexadecimal text.**

  A byte is written as two lower-case digits, the high half first; on reading both
  letter cases are taken.  Reading is defined on exactly the texts of an even number of
  digits, so an odd digit or any other character makes the whole text unreadable.
-/

namespace Hotspot

abbrev Bytes := List UInt8

namespace Hex

def digitValue? (c : Char) : Option Nat :=
  if '0' ≤ c ∧ c ≤ '9' then some (c.toNat - '0'.toNat)
  else if 'a' ≤ c ∧ c ≤ 'f' then some (c.toNat - 'a'.toNat + 10)
  else if 'A' ≤ c ∧ c ≤ 'F' then some (c.toNat - 'A'.toNat + 10)
  else none

def byte? (high low : Char) : Option UInt8 := do
  let h ← digitValue? high
  let l ← digitValue? low
  some (UInt8.ofNat (16 * h + l))

def ofByte (b : UInt8) : List Char :=
  [Nat.digitChar (b.toNat / 16), Nat.digitChar (b.toNat % 16)]

def encode (bytes : Bytes) : List Char := bytes.flatMap ofByte

def decode? : List Char → Option Bytes
  | [] => some []
  | [_] => none
  | high :: low :: rest => do
    let b ← byte? high low
    let bs ← decode? rest
    some (b :: bs)

def toText (bytes : Bytes) : String := String.ofList (encode bytes)

def ofText? (text : String) : Option Bytes := decode? text.toList

theorem byte?_ofByte (b : UInt8) :
    byte? (Nat.digitChar (b.toNat / 16)) (Nat.digitChar (b.toNat % 16)) = some b := by
  have digit : ∀ d, d < 16 → digitValue? (Nat.digitChar d) = some d := by decide
  have hlt : b.toNat < 256 := b.toNat_lt
  simp only [byte?, digit (b.toNat / 16) (by omega), digit (b.toNat % 16) (by omega),
    Option.bind_eq_bind, Option.bind_some]
  rw [Nat.div_add_mod, UInt8.ofNat_toNat]

/-- Reading takes back what was written. -/
theorem decode?_encode (bytes : Bytes) : decode? (encode bytes) = some bytes := by
  induction bytes with
  | nil => rfl
  | cons b bs ih =>
    rw [encode, List.flatMap_cons, ← encode, ofByte]
    simp only [List.cons_append, List.nil_append, decode?, byte?_ofByte, ih,
      Option.bind_eq_bind, Option.bind_some]

end Hex

end Hotspot
