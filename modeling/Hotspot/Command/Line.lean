/-
  Hotspot/Command/Line.lean
  =========================
  **The words of a command line.**

  A line holds options for the whole program, the name of a command, and options of that
  command.  An option is given once, unless it may be repeated; its value is the next word
  or follows an equals sign, and only the latter may start with a dash.  Help and version
  are answered where they stand, before anything after them is looked at.
-/
import Hotspot.Json.Form

namespace Hotspot.Command

/-- What an option takes. -/
inductive Shape where
  /-- No value. -/
  | switch
  /-- Any text. -/
  | text
  /-- A path, which is not empty. -/
  | path
  /-- The number of a user. -/
  | uid
deriving DecidableEq, Repr

structure Opt where
  long : String
  short : Option Char
  shape : Shape
  isRepeatable : Bool
deriving DecidableEq, Repr

/-- Why a line is not run. -/
inductive Stop where
  | usage
  | help
  | version
deriving DecidableEq, Repr

def once (long : String) (shape : Shape) : Opt :=
  { long, short := none, shape, isRepeatable := false }

/-! ### Values -/

/-- A number in the range of a user number; a sign is allowed where it does not matter. -/
def uid? (text : String) : Option UInt32 := do
  let (negative, digits) := match text.toList with
    | '-' :: rest => (true, rest)
    | '+' :: rest => (false, rest)
    | cs => (false, cs)
  if digits.isEmpty || !digits.all Char.isDigit then none
  else
    let n := Nat.ofDigitChars 10 digits 0
    if n < UInt32.size && !(negative && n != 0) then some (UInt32.ofNat n) else none

def Shape.admits (text : String) : Shape → Bool
  | .switch => false
  | .text => true
  | .path => text != ""
  | .uid => (uid? text).isSome

/-- The options given so far, each with its value, the latest first. -/
abbrev Given := List (Opt × String)

def Given.add (g : Given) (o : Opt) (value : String) : Except Stop Given :=
  if !o.isRepeatable && g.any fun e => e.1.long == o.long then .error .usage
  else if o.shape.admits value then .ok ((o, value) :: g)
  else .error .usage

def Given.switchOn (g : Given) (o : Opt) : Except Stop Given :=
  if g.any fun e => e.1.long == o.long then .error .usage else .ok ((o, "") :: g)

/-! ### Words -/

/-- Whether a word can be the value of the option before it. -/
def isValueWord (w : String) : Bool :=
  match w.toList with
  | '-' :: _ :: _ => false
  | _ => true

inductive Word where
  /-- The words after this one are no options. -/
  | separator
  /-- A long option, with the value behind its equals sign. -/
  | long (name : String) (value : Option String)
  /-- A short option, with the rest of the word. -/
  | short (letter : Char) (rest : List Char)
  | plain
deriving DecidableEq, Repr

def Word.ofText (w : String) : Word :=
  match w.toList with
  | ['-', '-'] => .separator
  | '-' :: '-' :: rest =>
    .long (String.ofList (rest.takeWhile (· ≠ '='))) (match rest.dropWhile (· ≠ '=') with
      | [] => none
      | _ :: value => some (String.ofList value))
  | '-' :: c :: rest => .short c rest
  | _ => .plain

/-- The value in the rest of a word with a short option; an equals sign in front of it does
    not belong to it. -/
def attachedValue : List Char → Option String
  | [] => none
  | '=' :: rest => some (String.ofList rest)
  | rest => some (String.ofList rest)

/-- Read options up to the first word that is none.  `hasVersion` says whether the version
    can be asked for.  After a separator no word means anything, so none may follow it. -/
def readOptions (opts : List Opt) (hasVersion : Bool) (g : Given) :
    List String → Except Stop (Given × List String)
  | [] => .ok (g, [])
  | w :: rest =>
    match Word.ofText w with
    | .plain => .ok (g, w :: rest)
    | .separator => if rest.isEmpty then .ok (g, []) else .error .usage
    | .long name value =>
      match opts.find? fun o => o.long == name with
      | some o =>
        if o.shape = .switch then
          match value with
          | some _ => .error .usage
          | none => do readOptions opts hasVersion (← g.switchOn o) rest
        else
          match value with
          | some v => do readOptions opts hasVersion (← g.add o v) rest
          | none =>
            match rest with
            | [] => .error .usage
            | v :: rest =>
              if isValueWord v then do readOptions opts hasVersion (← g.add o v) rest
              else .error .usage
      | none =>
        if name = "help" && value.isNone then .error .help
        else if name = "version" && value.isNone && hasVersion then .error .version
        else .error .usage
    | .short letter more =>
      match opts.find? fun o => o.short == some letter with
      | some o =>
        match attachedValue more with
        | some v => do readOptions opts hasVersion (← g.add o v) rest
        | none =>
          match rest with
          | [] => .error .usage
          | v :: rest =>
            if isValueWord v then do readOptions opts hasVersion (← g.add o v) rest
            else .error .usage
      | none =>
        if letter = 'h' then .error .help
        else if letter = 'V' && hasVersion then .error .version
        else .error .usage

/-! ### Looking options up -/

namespace Given

def value? (g : Given) (name : String) : Option String :=
  (g.find? fun e => e.1.long == name).map (·.2)

/-- The values of an option that may be repeated, in the order given. -/
def values (g : Given) (name : String) : List String :=
  ((g.filter fun e => e.1.long == name).map (·.2)).reverse

def required (g : Given) (name : String) : Except Stop String :=
  match g.value? name with
  | some v => .ok v
  | none => .error .usage

def requiredUid (g : Given) (name : String) : Except Stop UInt32 :=
  match (g.value? name).bind uid? with
  | some n => .ok n
  | none => .error .usage

def isOn (g : Given) (name : String) : Bool := (g.value? name).isSome

end Given

end Hotspot.Command
