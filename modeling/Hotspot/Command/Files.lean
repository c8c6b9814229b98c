/-
  Hotspot/Command/Files.lean
  ==========================
  **The text files that a command works with.**

  A path may say the same place in several ways (`./a`, `.//a`, `b/../a`), but every part of
  it goes on from a directory that is there: `a/` leads nowhere when `a` is a file.  A file
  is replaced by writing the new text beside it and renaming, so a text that cannot be
  written leaves the old file whole, and one that cannot be renamed stays beside it.
-/
import Hotspot.Command.Path
import Hotspot.OrderedMap

namespace Hotspot

/-- The text files that there are, by the shortest paths to them. -/
structure Files where
  texts : OrderedMap String String
deriving DecidableEq

/-- What a path leads to. -/
inductive Place where
  | file (text : String)
  /-- Something that gives no text, with the system's word for it. -/
  | unreadable (reason : String)
  | nothing
deriving DecidableEq, Repr

/-- What a command needs to know of stored files. -/
structure Disk where
  /-- What a path leads to. -/
  look : String → Place
  /-- Whether a text can take the place of the file at a path. -/
  canReplace : String → Bool

def Disk.read? (d : Disk) (path : String) : Option String :=
  match d.look path with
  | .file text => some text
  | _ => none

namespace Files

/-- The directories inside the root that every system has. -/
def standardDirectories : List Location := ["dev", "tmp"].map Location.root.next

def empty : Files := { texts := .ofList [("/dev/null", "")] }

/-- Whether a directory is at a place: one that is always there, or one with a file in it. -/
def isDirectory (fs : Files) (l : Location) : Bool :=
  l.names.isEmpty || standardDirectories.contains l
    || fs.texts.keys.any fun key => (l.key ++ "/").toList.isPrefixOf key.toList

def step? (fs : Files) (l : Location) (part : String) : Option Location :=
  if fs.isDirectory l && Path.isNameable part then some (l.next part) else none

/-- The place that a path leads to, whether something is there or not. -/
def locate? (fs : Files) (path : String) : Option Location :=
  if Path.isValid path then (Path.parts path).foldlM fs.step? (Path.start path) else none

def look (fs : Files) (path : String) : Place :=
  match fs.locate? path with
  | none => .nothing
  | some l =>
    if fs.isDirectory l then .unreadable "Is a directory (os error 21)"
    else
      match fs.texts.get? l.key with
      | some text => .file text
      | none => .nothing

/-- Put a text at a path, whether the directories on the way are there or not. -/
def put (fs : Files) (path text : String) : Files :=
  { texts := fs.texts.insert ((Path.parts path).foldl Location.next (Path.start path)).key text }

/-- The files after a text was written at a path, if it can be: there must be no directory in
    its place. -/
def write? (fs : Files) (path text : String) : Option Files := do
  let l ← fs.locate? path
  if fs.isDirectory l then none else some { texts := fs.texts.insert l.key text }

/-- The files after the file at one path took the place of the file at another, if it can. -/
def rename? (fs : Files) (source target : String) : Option Files := do
  let l ← fs.locate? source
  let text ← fs.texts.get? l.key
  let place ← fs.locate? target
  if fs.isDirectory place then none
  else some { texts := (fs.texts.erase l.key).insert place.key text }

/-- The files after a text took the place of the file at a path, if it can.  The temporary
    file is gone then, also one that was left over. -/
def replace? (fs : Files) (path text : String) : Option Files := do
  let temporary ← Path.temporary? path
  (← fs.write? temporary text).rename? temporary path

/-- The files after an attempt to replace the file at a path.  A text that can be written but
    not take that place stays in the temporary file. -/
def save (fs : Files) (path text : String) : Files :=
  match Path.temporary? path with
  | none => fs
  | some temporary =>
    match fs.write? temporary text with
    | none => fs
    | some written => (written.rename? temporary path).getD written

def disk (fs : Files) : Disk where
  look := fs.look
  canReplace path := (fs.replace? path "").isSome

end Files

end Hotspot
