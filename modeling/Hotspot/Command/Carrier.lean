/-
  Hotspot/Command/Carrier.lean
  ============================
  **SIM cards on the command line.**

  A SIM card is given as its subscriber number, an equals sign and the number of its
  carrier, which is a decimal number in the range of 32 bits with sign.
-/
import Hotspot.OrderedMap

namespace Hotspot.Command

/-- Why a SIM card cannot be read. -/
inductive CarrierError where
  | noEqualsSign (entry : String)
  | emptyNumber
  | invalidDigit
  | tooLarge
  | tooSmall
deriving DecidableEq, Repr

def CarrierError.message : CarrierError → String
  | .noEqualsSign entry => "expected IMSI=CARRIER_ID, got " ++ entry
  | .emptyNumber => "cannot parse integer from empty string"
  | .invalidDigit => "invalid digit found in string"
  | .tooLarge => "number too large to fit in target type"
  | .tooSmall => "number too small to fit in target type"

/-- The number that digits add to the ones already read.  The first character that is no
    digit, or that takes the number out of range, decides the error. -/
def readDigits (negative : Bool) (n : Int) : List Char → Except CarrierError Int
  | [] => .ok n
  | c :: rest =>
    if c.isDigit then
      let digit : Int := c.toNat - '0'.toNat
      let next := if negative then 10 * n - digit else 10 * n + digit
      if next < -0x80000000 then .error .tooSmall
      else if 0x80000000 ≤ next then .error .tooLarge
      else readDigits negative next rest
    else .error .invalidDigit

def readCarrierId (text : List Char) : Except CarrierError Int32 :=
  match text with
  | [] => .error .emptyNumber
  | ['+'] => .error .invalidDigit
  | ['-'] => .error .invalidDigit
  | '+' :: rest => (readDigits false 0 rest).map Int32.ofInt
  | '-' :: rest => (readDigits true 0 rest).map Int32.ofInt
  | digits => (readDigits false 0 digits).map Int32.ofInt

def readCarrier (entry : String) : Except CarrierError (String × Int32) :=
  match entry.toList.dropWhile (· ≠ '=') with
  | [] => .error (.noEqualsSign entry)
  | _ :: number =>
    (readCarrierId number).map fun id => (String.ofList (entry.toList.takeWhile (· ≠ '=')), id)

/-- The carriers of SIM cards; of two with one subscriber number the later counts. -/
def readCarriers (entries : List String) : Except CarrierError (OrderedMap String Int32) :=
  (entries.mapM readCarrier).map OrderedMap.ofList

end Hotspot.Command
