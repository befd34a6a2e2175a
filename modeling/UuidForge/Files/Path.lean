import UuidForge.Text

/-!
# Written paths

A path is written as parts between slashes. A part is a name, or two dots for the directory above,
or it leads nowhere else: a single dot, or nothing at all. Paths are relative to a top directory.

* `PathStep.ofPart`: what a part stands for.
* `WrittenPath.isAccepted`: what the file system takes for a path at all.
* `WrittenPath.directory`, `WrittenPath.name?`: the two halves of the path of a file.
* `WrittenPath.trimmed`: a path as it is shown, without what leads nowhere else at its ends.
-/

namespace UuidForge

/-- What a part of a path stands for. -/
inductive PathStep
  /-- The directory itself. -/
  | stay
  /-- The directory above. -/
  | up
  /-- What has this name in the directory. -/
  | down (name : String)
  deriving DecidableEq, Repr

namespace PathStep

/-- What a part of a path stands for. Three dots and more are a name. -/
def ofPart (part : String) : PathStep :=
  if part = "" ∨ part = "." then .stay
  else if part = ".." then .up
  else .down part

/-- The most octets in a name. -/
def longestName : Nat := 255

end PathStep

/-- A path as it is written, which need not lead anywhere. -/
structure WrittenPath where
  /-- What stands between the slashes. -/
  parts : List String
  deriving DecidableEq, Repr

namespace WrittenPath

/-- The path that a text spells. -/
def ofString (s : String) : WrittenPath := ⟨(Text.splitAt '/' s.toList).map String.ofList⟩

/-- The octets of a path with a slash before every part. -/
def size (p : WrittenPath) : Nat := p.parts.foldr (fun part n => part.utf8ByteSize + 1 + n) 0

/-- The most octets in a path, which leaves room for the path of the top directory. -/
def longest : Nat := 4080

/-- A path is no longer than the limit, and a zero character occurs nowhere in it. -/
def isAccepted (p : WrittenPath) : Bool :=
  decide (p.size ≤ longest) && p.parts.all fun part => !part.toList.contains '\x00'

/-- The parts up to the last one that leads elsewhere. -/
def trimEnd (parts : List String) : List String :=
  parts.foldr (fun part rest =>
    if rest = [] ∧ PathStep.ofPart part = .stay then [] else part :: rest) []

/-- **A path without the parts at its ends that lead nowhere else.** Such parts between others stay
as they are written. -/
def trimmed (p : WrittenPath) : WrittenPath :=
  ⟨trimEnd (p.parts.dropWhile fun part => PathStep.ofPart part = .stay)⟩

/-- The text that spells a path. -/
def text (p : WrittenPath) : String := "/".intercalate p.parts

/-- **The directory that the last name of a path lies in.** What leads nowhere else is passed over
at both ends of that name. -/
def directory (p : WrittenPath) : WrittenPath := ⟨trimEnd (trimEnd p.parts).dropLast⟩

/-- **The name that a path ends in.** A path that ends in a slash or in dots has none. -/
def name? (p : WrittenPath) : Option String := do
  match PathStep.ofPart (← p.parts.getLast?) with
  | .down name => some name
  | _ => none

end WrittenPath

end UuidForge
