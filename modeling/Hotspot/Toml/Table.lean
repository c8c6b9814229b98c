/-
  Hotspot/Toml/Table.lean
  =======================
  **The tables that the lines of a TOML text build up.**

  Tables come to be in several ways, and how decides what may still be added: a table that
  a header only passed through may get a header of its own once; one made by a dotted key
  may be extended by further dotted keys; one written as a value is complete.  Whatever is
  defined twice makes the text invalid.
-/
import Hotspot.Json.Basic

namespace Hotspot.Toml

/-- How a table came to be. -/
inductive Origin where
  /-- By being part of the name of another table. -/
  | passed
  /-- By a header of its own. -/
  | header
  /-- By a dotted key. -/
  | dotted
deriving DecidableEq, Repr

/-- What a name stands for while a text is read. -/
inductive Node where
  /-- A complete value. -/
  | value (j : Json)
  | table (origin : Origin) (children : List (String × Node))
  /-- An array of tables, of which the last may still grow; it comes first here. -/
  | tables (last : List (String × Node)) (earlier : List (List (String × Node)))
deriving Repr, Inhabited

/-- The children of a table by name, in the order they came to be. -/
abbrev Children := List (String × Node)

def update (name : String) (f : Option Node → Option Node) : Children → Option Children
  | [] => (f none).map fun n => [(name, n)]
  | (name', n) :: rest =>
    if name' = name then (f (some n)).map fun n => (name', n) :: rest
    else (update name f rest).map ((name', n) :: ·)

/-- Change the children of a table, or of the last table of an array. -/
def Node.within (origin : Origin) (f : Children → Option Children) : Option Node → Option Node
  | none => (f []).map (.table origin)
  | some (.table o children) => (f children).map (.table o)
  | some (.tables last earlier) => (f last).map fun c => .tables c earlier
  | some (.value _) => none

def atHeader (f : Children → Option Children) : List String → Children → Option Children
  | [], children => f children
  | name :: rest, children => update name (Node.within .passed (atHeader f rest)) children

def openTable : List String → Children → Option Children
  | [], _ => none
  | [name], children => update name (fun
    | none => some (.table .header [])
    | some (.table .passed c) => some (.table .header c)
    | some _ => none) children
  | name :: rest, children => update name (Node.within .passed (openTable rest)) children

def openElement : List String → Children → Option Children
  | [], _ => none
  | [name], children => update name (fun
    | none => some (.tables [] [])
    | some (.tables last earlier) => some (.tables [] (last :: earlier))
    | some _ => none) children
  | name :: rest, children => update name (Node.within .passed (openElement rest)) children

/-- Pass through a table on the way of a dotted key.  A table that no header of its own
    has may be passed, and so may the last table of an array; only a table made by dotted
    keys takes the value itself. -/
def Node.withinDotted (takesValue : Bool) (f : Children → Option Children) :
    Option Node → Option Node
  | none => (f []).map (.table .dotted)
  | some (.table .dotted children) => (f children).map (.table .dotted)
  | some (.table .passed children) =>
    if takesValue then none else (f children).map (.table .passed)
  | some (.tables last earlier) =>
    if takesValue then none else (f last).map fun c => .tables c earlier
  | some _ => none

def assign (j : Json) : List String → Children → Option Children
  | [], _ => none
  | [name], children => update name (fun
    | none => some (.value j)
    | some _ => none) children
  | name :: rest, children =>
    update name (Node.withinDotted (rest.length = 1) (assign j rest)) children

mutual

def Node.toJson : Node → Json
  | .value j => j
  | .table _ children => .obj (membersOf children)
  | .tables last earlier => .arr ((tablesOf earlier).reverse ++ [.obj (membersOf last)])

def membersOf : List (String × Node) → List (String × Json)
  | [] => []
  | (name, n) :: rest => (name, n.toJson) :: membersOf rest

def tablesOf : List (List (String × Node)) → List Json
  | [] => []
  | children :: rest => .obj (membersOf children) :: tablesOf rest

end

end Hotspot.Toml
