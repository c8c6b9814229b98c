/-
  Hotspot/Toml/Reader.lean
  ========================
  **Reading TOML text.**

  A text is a sequence of lines: headers, which say which table the lines after them speak
  of, and keys with values.  The result is a JSON object with the same tables, numbers and
  strings.
-/
import Hotspot.Toml.Scalar
import Hotspot.Toml.Table
import Hotspot.Toml.Text

namespace Hotspot.Toml

mutual

/-- The value at the start of a text, inside `depth` arrays and inline tables. -/
def value? : Nat → Nat → List Char → Option (Json × List Char)
  | 0, _, _ => none
  | fuel + 1, depth, cs =>
    match cs with
    | '"' :: _ => (string? cs).map fun r => (.str r.1, r.2)
    | '\'' :: _ => (string? cs).map fun r => (.str r.1, r.2)
    | '[' :: rest =>
      if depth + 1 < maxDepth then
        (items? fuel (depth + 1) (skipSpace rest)).map fun r => (.arr r.1, r.2)
      else none
    | '{' :: rest =>
      if depth + 1 < maxDepth then
        match skipBlank rest with
        | '}' :: rest => some (.obj [], rest)
        | rest => do
          let (children, rest) ← inlineMembers? fuel (depth + 1) [] rest
          some (.obj (membersOf children), rest)
      else none
    | cs => (scalar? (word cs).1).map fun j => (j, (word cs).2)

def items? : Nat → Nat → List Char → Option (List Json × List Char)
  | 0, _, _ => none
  | fuel + 1, depth, cs =>
    match cs with
    | ']' :: rest => some ([], rest)
    | cs => do
      let (item, rest) ← value? fuel depth cs
      match skipSpace rest with
      | ',' :: rest => do
        let (items, rest) ← items? fuel depth (skipSpace rest)
        some (item :: items, rest)
      | ']' :: rest => some ([item], rest)
      | _ => none

def inlineMembers? : Nat → Nat → Children → List Char → Option (Children × List Char)
  | 0, _, _, _ => none
  | fuel + 1, depth, children, cs => do
    let (name, rest) ← key? cs
    match rest with
    | '=' :: rest => do
      let (j, rest) ← value? fuel depth (skipBlank rest)
      let children ← assign j name children
      match skipBlank rest with
      | ',' :: rest => inlineMembers? fuel depth children rest
      | '}' :: rest => some (children, rest)
      | _ => none
    | _ => none

end

/-- The tables read so far, and the header that the next keys belong to. -/
structure Document where
  root : Children
  header : List String

/-- A header after its opening bracket or brackets: its name, and the text after the closing
    ones. -/
def headerName? (closing : List Char) (cs : List Char) : Option (List String × List Char) := do
  let (name, rest) ← key? cs
  if closing.isPrefixOf rest then some (name, rest.drop closing.length) else none

def statement? (d : Document) (cs : List Char) : Option (Document × List Char) :=
  match cs with
  | '[' :: '[' :: rest => do
    let (name, rest) ← headerName? [']', ']'] rest
    some ({ root := ← openElement name d.root, header := name }, rest)
  | '[' :: rest => do
    let (name, rest) ← headerName? [']'] rest
    some ({ root := ← openTable name d.root, header := name }, rest)
  | cs => do
    let (name, rest) ← key? cs
    match rest with
    | '=' :: rest => do
      let (j, rest) ← value? (2 * rest.length + 2) 0 (skipBlank rest)
      some ({ d with root := ← atHeader (assign j name) d.header d.root }, rest)
    | _ => none

def statements? : Nat → Document → List Char → Option Document
  | 0, _, _ => none
  | fuel + 1, d, cs =>
    match skipSpace cs with
    | [] => some d
    | cs => do
      let (d, rest) ← statement? d cs
      statements? fuel d (← endLine? rest)

/-- The object that a text denotes.  A byte order mark in front is skipped. -/
def parse? (text : String) : Option Json :=
  let cs := match text.toList with
    | '\uFEFF' :: rest => rest
    | cs => cs
  (statements? (cs.length + 1) { root := [], header := [] } cs).map fun d =>
    .obj (membersOf d.root)

end Hotspot.Toml
