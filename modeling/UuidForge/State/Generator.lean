import UuidForge.Entropy
import UuidForge.Files.Tree
import UuidForge.State.Record

/-!
# Generator states

A generator state keeps two clock domains apart: one for UUIDs with the hardware address of the
host, one for UUIDs with random node ids. It can be attached to a file, so that it outlives the
process. A failed load or save never stands in the way of generation: it is remembered and reported
to the listener.

* A **load** replaces both domains and the random node id. A sequence missing in the record is
  drawn.
* A **save** is due after every change of a sequence or a node id, at the first refresh after the
  path was set, and else once per second of monotonic time.
-/

namespace UuidForge

/-- The two clock domains. -/
inductive ClockKind
  /-- UUIDs with the hardware address. -/
  | physical
  /-- UUIDs with random or other node ids. -/
  | random
  deriving DecidableEq, Repr

/-- A failed load or save. -/
structure StorageFailure where
  operation : StorageOperation
  path : String
  cause : StorageError
  deriving DecidableEq, Repr

/-- A listener for storage failures, known by a number. -/
abbrev Listener := Nat

/-- A failure that was handed to a listener. -/
structure Delivery where
  listener : Listener
  failure : StorageFailure
  deriving DecidableEq, Repr

/-- What the generators of one state share. -/
structure GeneratorState where
  physical : ClockState
  random : ClockState
  /-- The node id of the generators with a random node id that outlives the process. -/
  randomNode : Option NodeId := none
  /-- The file that the state is kept in. -/
  path : Option String := none
  /-- The monotonic time of the last save since the path was set. -/
  lastSave : Option Span := none
  listener : Option Listener := none
  lastFailure : Option StorageFailure := none
  /-- All failures handed to listeners, oldest first. -/
  deliveries : List Delivery := []
  deriving DecidableEq, Repr

namespace GeneratorState

/-- The least span between two saves without a change. -/
def saveInterval : Span := 1000000000

/-- A state with random clock sequences, hardware domain first, and no file. -/
def create (e : Entropy) : GeneratorState × Entropy :=
  let (p, e) := e.drawSequence
  let (r, e) := e.drawSequence
  ({ physical := ClockState.new p, random := ClockState.new r }, e)

/-- One of the two clock domains. -/
def domain (s : GeneratorState) : ClockKind → ClockState
  | .physical => s.physical
  | .random => s.random

/-- Replaces one of the two clock domains. -/
def setDomain (s : GeneratorState) (k : ClockKind) (c : ClockState) : GeneratorState :=
  match k with
  | .physical => { s with physical := c }
  | .random => { s with random := c }

/-- Starts over with random clock sequences and without a random node id. -/
def reset (s : GeneratorState) (e : Entropy) : GeneratorState × Entropy :=
  let (fresh, e) := create e
  ({ s with physical := fresh.physical, random := fresh.random, randomNode := none }, e)

/-- The later of the two last timestamps, unless neither domain has one. -/
def lastTimestamp? (s : GeneratorState) : Option Ticks :=
  let t := if s.physical.last ≤ s.random.last then s.random.last else s.physical.last
  if t = Ticks.never then none else some t

/-- The record that a save writes. -/
def snapshot (s : GeneratorState) : StateRecord where
  timestamp := s.lastTimestamp?
  physicalSequence := some (s.physical.sequence.setWidth 16)
  randomSequence := some (s.random.sequence.setWidth 16)
  physicalNode := s.physical.node
  randomNode := s.randomNode <|> s.random.node

/-- The clock sequence of a record, or a random one. -/
def restoredSequence (sequence : Option (BitVec 16)) (e : Entropy) : ClockSequence × Entropy :=
  match sequence with
  | some n => (n.setWidth 14, e)
  | none => e.drawSequence

/-- Takes over a record. Both domains continue from its timestamp. -/
def restore (s : GeneratorState) (r : StateRecord) (e : Entropy) : GeneratorState × Entropy :=
  let last := r.timestamp.getD Ticks.never
  let (p, e) := restoredSequence r.physicalSequence e
  let (q, e) := restoredSequence r.randomSequence e
  ({ s with
      physical := { last, sequence := p, node := r.physicalNode }
      random := { last, sequence := q, node := r.randomNode }
      randomNode := r.randomNode }, e)

/-- Remembers a failure and hands it to the listener, if there is one. -/
def report (s : GeneratorState) (f : StorageFailure) : GeneratorState :=
  { s with
    lastFailure := some f
    deliveries := s.deliveries ++ s.listener.toList.map fun l => ⟨l, f⟩ }

/-- The record in a file. -/
def loadRecord (files : FileTree) (path : String) : Except StorageError StateRecord :=
  match files.load (.ofString path) with
  | .ok content => StateRecord.decode content
  | .error .missing => .error (.fileNotFound path)
  | .error .refused => .error .io

/-- Stores a record in a file. The answer tells whether the file was written. -/
def storeRecord (files : FileTree) (path : String) (r : StateRecord) : Bool × FileTree :=
  files.store (.ofString path) r.encode

/-- **Attaches a state to a file and loads it**, or detaches it. The path is kept when the load
fails, so that the next save mends the file. The answer tells whether a record was loaded. -/
def attach (s : GeneratorState) (path : Option String) (files : FileTree) (e : Entropy) :
    Bool × GeneratorState × Entropy :=
  let s := { s with path, lastSave := none }
  match path with
  | none => (false, s, e)
  | some path =>
    match loadRecord files path with
    | .ok r => (true, s.restore r e)
    | .error cause => (false, s.report ⟨.read, path, cause⟩, e)

/-- **Saves a state** at a monotonic time. The answer tells whether a file was written. -/
def save (s : GeneratorState) (now : Span) (files : FileTree) :
    Bool × GeneratorState × FileTree :=
  match s.path with
  | none => (false, s, files)
  | some path =>
    let (written, files) := storeRecord files path s.snapshot
    let s := { s with lastSave := some now }
    (written, if written then s else s.report ⟨.write, path, .io⟩, files)

/-- A save is due at a monotonic time. -/
def saveDue (s : GeneratorState) (now : Span) (changed : Bool) : Bool :=
  s.path.isSome && (changed || match s.lastSave with
    | some last => decide (saveInterval ≤ now - last)
    | none => true)

/-- Advances a clock domain. -/
def advance (s : GeneratorState) (k : ClockKind) (t : Ticks) (node : Option NodeId) :
    ClockState.Refresh × GeneratorState :=
  let (r, c) := (s.domain k).refresh t node
  (r, s.setDomain k c)

/-- **Advances a clock domain and saves the state if that is due.** -/
def refresh (s : GeneratorState) (k : ClockKind) (t : Ticks) (node : Option NodeId) (now : Span)
    (files : FileTree) : ClockSequence × GeneratorState × FileTree :=
  let (r, s) := s.advance k t node
  if s.saveDue now r.changed then
    let (_, s, files) := s.save now files
    (r.sequence, s, files)
  else (r.sequence, s, files)

/-- The files after a state is given up: what was not saved yet is written. -/
def flush (s : GeneratorState) (files : FileTree) : FileTree :=
  match s.path with
  | none => files
  | some path => (storeRecord files path s.snapshot).2

/-- The random node id of a state, drawn on first use. -/
def nonVolatileNode (s : GeneratorState) (e : Entropy) : NodeId × GeneratorState × Entropy :=
  match s.randomNode with
  | some n => (n, s, e)
  | none =>
    let (n, e) := e.drawNode
    (n, { s with randomNode := some n }, e)

/-- Installs a listener in place of the one before. -/
def listen (s : GeneratorState) (l : Listener) : GeneratorState := { s with listener := some l }

end GeneratorState

end UuidForge
