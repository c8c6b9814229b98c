/-
  Hotspot/Json/Basic.lean
  =======================
  **The values that JSON text denotes.**

  Numbers matter here only as whole numbers: identifiers and times run up to 2^64 - 1 and
  are read exactly.  A number with a fraction or an exponent, and the negative zero, are
  kept by their spelling; no field of this library reads one.

  A string whose escapes spell half of a surrogate pair is correct JSON but denotes no
  text.  Such a string, and an object with such a member name, is the value `unpaired`: it
  may stand where a value is skipped, and nothing reads it.
-/

namespace Hotspot

inductive Json where
  | null
  | bool (b : Bool)
  | int (n : Int)
  | real (spelling : List Char)
  | str (s : String)
  | arr (items : List Json)
  | obj (members : List (String × Json))
  | unpaired
deriving Repr, Inhabited

namespace Json

abbrev Members := List (String × Json)

mutual

/-- Whether every string in a value denotes a text. -/
def isPaired : Json → Bool
  | .arr items => allPaired items
  | .obj members => membersPaired members
  | .unpaired => false
  | _ => true

def allPaired : List Json → Bool
  | [] => true
  | j :: rest => isPaired j && allPaired rest

def membersPaired : List (String × Json) → Bool
  | [] => true
  | m :: rest => isPaired m.2 && membersPaired rest

end

end Json

end Hotspot
