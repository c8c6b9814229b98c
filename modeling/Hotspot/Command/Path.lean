/-
  Hotspot/Command/Path.lean
  =========================
  **Paths and the places that they lead to.**

  A path is a list of parts with a slash between them.  It begins at the root when a slash
  stands in front, else in the working directory.  A place is known by its names from there
  inwards; above the working directory, where names are not known, it is known by the
  number of steps out.
-/

namespace Hotspot

/-! ### Places -/

/-- Where the names of a place begin. -/
inductive Origin where
  | root
  /-- So many directories above the working directory. -/
  | above (levels : Nat)
deriving DecidableEq, Repr

/-- A place in the tree of directories, whether something is there or not. -/
structure Location where
  origin : Origin
  names : List String
deriving DecidableEq, Repr

namespace Location

def root : Location := { origin := .root, names := [] }

def working : Location := { origin := .above 0, names := [] }

def parent (l : Location) : Location :=
  match l.names, l.origin with
  | [], .root => l
  | [], .above levels => { l with origin := .above (levels + 1) }
  | names, _ => { l with names := names.dropLast }

/-- The place one part of a path further: an empty part and a dot stay, two dots go out, any
    other part is the name of something inside. -/
def next (l : Location) (part : String) : Location :=
  if part = "" ∨ part = "." then l
  else if part = ".." then l.parent
  else { l with names := l.names ++ [part] }

def key (l : Location) : String :=
  match l.origin with
  | .root => "/" ++ "/".intercalate l.names
  | .above levels => "/".intercalate (List.replicate levels ".." ++ l.names)

end Location

/-! ### Paths -/

namespace Path

def parts (path : String) : List String := (path.toList.splitOn '/').map String.ofList

def start (path : String) : Location :=
  if (parts path).head? = some "" then .root else .working

/-- Whether a text is a path: it is not empty, has no character zero in it and takes at most
    4095 bytes. -/
def isValid (path : String) : Bool :=
  path != "" && !path.toList.contains (Char.ofNat 0) && path.utf8ByteSize ≤ 4095

/-- Whether a part is short enough for a name: it takes at most 255 bytes. -/
def isNameable (part : String) : Bool := part.utf8ByteSize ≤ 255

/-- Whether a part of a path leads no further. -/
def isIdle (part : String) : Bool := part = "" || part = "."

/-- The text of a name up to its last dot; a dot in front does not count. -/
def stem (name : String) : String :=
  match (name.toList.reverse.dropWhile (· ≠ '.')).drop 1 with
  | [] => name
  | before => String.ofList before.reverse

/-- The path of the file that a text is written to before it takes the place of another: it
    is beside that file, with an ending of its own.  There is none when the path does not end
    in a name.  A name such as `..a` at the very end of a path gives none either, as it is
    the directory above once its ending is taken off. -/
def temporary? (path : String) : Option String :=
  let reversed := (parts path).reverse
  match reversed.dropWhile isIdle with
  | [] => none
  | name :: before =>
    if name = ".." ∨ (stem name = "." ∧ reversed.head? = some name) then none
    else some ("/".intercalate (before.reverse ++ [stem name ++ ".json.tmp"]))

end Path

end Hotspot
