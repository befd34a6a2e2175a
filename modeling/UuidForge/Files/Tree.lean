import UuidForge.Files.Path
import UuidForge.Octets

/-!
# File trees

A directory with what lies below it: files, which hold octets, and directories. A place in the tree
is the list of names that lead to it from the top.

* A **walk** takes the parts of a written path one by one. Each of them, even an empty one, is
  looked up in a directory that is there. So two dots lead back only from a directory, and a slash
  after the name of a file leads nowhere.
* A **load** reads the file at the end of a walk.
* A **store** makes the directories that are missing on the way and then writes the file in one
  step. Directories stay even if the file is refused.
-/

namespace UuidForge

/-- What lies at a place. -/
inductive FileNode
  | file (content : Octets)
  | directory
  deriving DecidableEq, Repr

/-- The names that lead to a place from the top. Leading double dots lead above the top. -/
abbrev NamePath := List String

/-- Why a path leads to no file. -/
inductive LoadError
  /-- A name on the path is not there. -/
  | missing
  /-- The path leads to a directory or through a file, or the file system does not accept it. -/
  | refused
  deriving DecidableEq, Repr

/-- Files and directories by place. The top directory and those above it are always there and have
no entry. -/
structure FileTree where
  entries : List (NamePath × FileNode) := []
  deriving DecidableEq, Repr

namespace FileTree

/-- What lies at a place. -/
def find? (t : FileTree) (place : NamePath) : Option FileNode :=
  if place.all (· = "..") then some .directory else t.entries.lookup place

/-- The directory above a place. -/
def above (place : NamePath) : NamePath :=
  if place.all (· = "..") then place ++ [".."] else place.dropLast

/-- Puts a file or a directory at a place instead of what was there. -/
def put (t : FileTree) (place : NamePath) (node : FileNode) : FileTree :=
  ⟨(place, node) :: t.entries.filter fun e => e.1 ≠ place⟩

/-- Takes away what lies at a place, and all below it. -/
def remove (t : FileTree) (place : NamePath) : FileTree :=
  ⟨t.entries.filter fun e => !place.isPrefixOf e.1⟩

/-- The names in a directory, in order. -/
def names (t : FileTree) (place : NamePath) : List String :=
  (t.entries.filterMap fun e =>
    match e.1.getLast? with
    | some name => if e.1.dropLast = place then some name else none
    | none => none).mergeSort fun a b => decide (a ≤ b)

/-- The file at a place. -/
def content? (t : FileTree) (place : NamePath) : Option Octets :=
  match t.find? place with
  | some (.file content) => some content
  | _ => none

/-- A file as text, if it is proper UTF-8. -/
def text? (t : FileTree) (place : NamePath) : Option String :=
  (t.content? place).bind Octets.text?

/-! ## Walks -/

/-- Where a part of a path leads. -/
def follow (t : FileTree) (place : NamePath) (part : String) : Except LoadError NamePath :=
  if t.find? place = some .directory then
    match PathStep.ofPart part with
    | .stay => .ok place
    | .up => .ok (above place)
    | .down name =>
      if PathStep.longestName < name.utf8ByteSize then .error .refused
      else if (t.find? (place ++ [name])).isSome then .ok (place ++ [name])
      else .error .missing
  else .error .refused

/-- **Where a path leads.** -/
def locate (t : FileTree) (p : WrittenPath) : Except LoadError NamePath :=
  if p.isAccepted then p.parts.foldlM t.follow [] else .error .refused

/-- **Reads a file.** -/
def load (t : FileTree) (p : WrittenPath) : Except LoadError Octets := do
  match t.content? (← t.locate p) with
  | some content => return content
  | none => throw .refused

/-! ## Changes -/

/-- Follows a part of a path to a directory, which is made if its name is not there. Once a part
leads to no directory, the way is lost. -/
def enter : FileTree × Option NamePath → String → FileTree × Option NamePath
  | (t, none), _ => (t, none)
  | (t, some place), part =>
    match t.follow place part with
    | .ok next => (t, if t.find? next = some .directory then some next else none)
    | .error .missing => (t.put (place ++ [part]) .directory, some (place ++ [part]))
    | .error .refused => (t, none)

/-- **Makes the directories on a path that are missing**, and answers with the place of the last
one, unless the way is lost. -/
def makeDirectories (t : FileTree) (p : WrittenPath) : FileTree × Option NamePath :=
  if p.isAccepted then p.parts.foldl enter (t, some []) else (t, none)

/-- The octets of the name, and the slash before it, under which a file is written at first. -/
def draftSize : Nat := 11

/-- A file can get a name in a directory. -/
def canHold (t : FileTree) (place : NamePath) (name : String) : Bool :=
  decide (name.utf8ByteSize ≤ PathStep.longestName) &&
    t.find? (place ++ [name]) ≠ some .directory

/-- **Writes a file** in one step and makes the directories on its way. The answer tells whether
the file was written. -/
def store (t : FileTree) (p : WrittenPath) (content : Octets) : Bool × FileTree :=
  match t.makeDirectories p.directory, p.name? with
  | (t, some place), some name =>
    if p.isAccepted ∧ p.directory.size + draftSize ≤ WrittenPath.longest
        ∧ t.canHold place name then
      (true, t.put (place ++ [name]) (.file content))
    else (false, t)
  | (t, _), _ => (false, t)

end FileTree

end UuidForge
