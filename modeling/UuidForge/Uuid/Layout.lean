import UuidForge.Error
import UuidForge.Node
import UuidForge.Uuid.Fields
import UuidForge.Uuid.Version

/-!
# Layouts

A `Layout` says where a version keeps its components in the 122 bits around version and variant.
A component is read from and written to its slices; one that the layout does not have is refused.

| version | components |
|---|---|
| 1, 6 | timestamp, clock sequence, node id |
| 2 | timestamp, clock sequence, node id, domain, local id |
| 3, 5 | hash data |
| 4 | random data |
| 7 | timestamp, random data |
| 8 | custom data |

Writing a component changes its own slices only, so version and variant survive every write.
-/

namespace UuidForge

/-- The number held in a list of slices, most significant slice first. -/
def gather (ss : List Slice) (u : Uuid) : Nat :=
  ss.foldl (fun n s => n <<< s.width + (s.read u).toNat) 0

/-- The number of bits of a list of slices. -/
def totalWidth (ss : List Slice) : Nat := ss.foldl (fun n s => n + s.width) 0

/-- Spreads a number over a list of slices, most significant slice first. -/
def scatter : List Slice → Uuid → Nat → Uuid
  | [], u, _ => u
  | s :: ss, u, n => scatter ss (s.write u (BitVec.ofNat s.width (n >>> totalWidth ss))) n

/-- The bits of a list of slices. -/
def maskOf (ss : List Slice) : BitVec 128 := ss.foldl (fun m s => m ||| s.mask) 0

/-- A timestamp field. -/
structure TimeField where
  /-- How the field counts time. -/
  scale : TimeScale
  /-- How many low bits of the count are not kept. -/
  dropped : Nat
  /-- Where the other bits are kept, most significant slice first. -/
  slices : List Slice
  deriving DecidableEq, Repr

namespace TimeField

/-- The first point of time with the count that the field holds. -/
def read (f : TimeField) (u : Uuid) : Ticks := f.scale.point (gather f.slices u <<< f.dropped)

/-- Stores a point of time that lies on the scale of the field. -/
def write (f : TimeField) (u : Uuid) (t : Ticks) : Except Error Uuid :=
  match f.scale.count? t with
  | some n => .ok (scatter f.slices u (n >>> f.dropped))
  | none => .error (.outOfRange (.timestamp f.scale.first f.scale.last))

end TimeField

namespace Slice

/-- The 12 bits of `time_hi_and_version` below the version. -/
abbrev timeHi : Slice := ⟨64, 12⟩

/-- The 14 bits below the variant of the standard layout. -/
abbrev clockSequence : Slice := ⟨48, 14⟩

/-- The upper six bits of the clock sequence. -/
abbrev clockHi : Slice := ⟨56, 6⟩

/-- The first six octets. -/
abbrev leading : Slice := ⟨80, 48⟩

/-- The bits after the variant. -/
abbrev trailing : Slice := ⟨0, 62⟩

end Slice

/-- Where a version keeps its components. -/
structure Layout where
  time : Option TimeField := none
  clock : Option Slice := none
  /-- A node id is kept in the node field. -/
  hasNode : Bool := false
  /-- A local id is kept in `time_low` and its domain in `clock_seq_low`. -/
  hasLocalId : Bool := false
  hash : List Slice := []
  random : List Slice := []
  custom : List Slice := []
  deriving DecidableEq, Repr

/-- The three kinds of data blocks. -/
inductive Block
  | hash
  | random
  | custom
  deriving DecidableEq, Repr

/-- The refusal of a block that a layout does not have. -/
def Block.unsupported : Block → Unsupported
  | hash => .hashData
  | random => .randomData
  | custom => .customData

namespace Layout

/-- All bits but the version and the two bits of the standard variant. -/
def payload : List Slice := [Slice.leading, Slice.timeHi, Slice.trailing]

/-- Nil, Max and versions without a layout of their own. -/
def bare : Layout := {}

/-- Version 1: Gregorian time, low part first. -/
def gregorian : Layout where
  time := some ⟨.gregorian, 0, [Slice.timeHi, Slice.timeMid, Slice.timeLow]⟩
  clock := some Slice.clockSequence
  hasNode := true

/-- Version 6: Gregorian time, high part first. -/
def sortable : Layout where
  time := some ⟨.gregorian, 0, [Slice.timeLow, Slice.timeMid, Slice.timeHi]⟩
  clock := some Slice.clockSequence
  hasNode := true

/-- Version 2: version 1 with a local id and a domain in place of the low parts. -/
def dceSecurity : Layout where
  time := some ⟨.gregorian, 32, [Slice.timeHi, Slice.timeMid]⟩
  clock := some Slice.clockHi
  hasNode := true
  hasLocalId := true

/-- Versions 3 and 5: the head of a digest. -/
def nameBased : Layout := { hash := payload }

/-- Version 4: random bits. -/
def allRandom : Layout := { random := payload }

/-- Version 7: milliseconds since 1970, then random bits. -/
def unixTime : Layout where
  time := some ⟨.unixMilliseconds, 0, [Slice.leading]⟩
  random := [Slice.timeHi, Slice.trailing]

/-- Version 8: all bits for a layout of one's own. -/
def freeForm : Layout := { custom := payload }

/-- The layout of a version. -/
def ofVersion (v : Version) : Layout :=
  match v.toNat with
  | 1 => gregorian
  | 2 => dceSecurity
  | 3 => nameBased
  | 4 => allRandom
  | 5 => nameBased
  | 6 => sortable
  | 7 => unixTime
  | 8 => freeForm
  | _ => bare

/-- The slices of a kind of data block. -/
def block (l : Layout) : Block → List Slice
  | .hash => l.hash
  | .random => l.random
  | .custom => l.custom

/-- All slices of a layout. -/
def slices (l : Layout) : List Slice :=
  (l.time.map TimeField.slices).getD [] ++ l.clock.toList ++
    (if l.hasNode then [Slice.node] else []) ++
    (if l.hasLocalId then [Slice.clockLow, Slice.timeLow] else []) ++
    l.hash ++ l.random ++ l.custom

/-- The version as a layout reads it, whichever layout it is: the top of `time_hi_and_version`. -/
def version (_ : Layout) (u : Uuid) : Version :=
  ⟨(Slice.timeHiAndVersion.read u >>> 12).setWidth 4⟩

/-- The variant as a layout reads it, whichever layout it is. -/
def variant (_ : Layout) (u : Uuid) : Variant := .decode (Slice.clockHiAndVariant.read u)

variable (l : Layout) (u : Uuid)

/-- The timestamp, in ticks since 1970. -/
def timestamp : Except Error Ticks :=
  match l.time with
  | some f => .ok (f.read u)
  | none => .error (.notSupported .timestamp)

/-- Writes the timestamp, given in ticks since 1970. -/
def setTimestamp (t : Ticks) : Except Error Uuid :=
  match l.time with
  | some f => f.write u t
  | none => .error (.notSupported .timestamp)

/-- The clock sequence. -/
def clockSequence : Except Error Nat :=
  match l.clock with
  | some s => .ok (s.read u).toNat
  | none => .error (.notSupported .clockSequence)

/-- Writes a clock sequence that fits in its slice. -/
def setClockSequence (n : Nat) : Except Error Uuid :=
  match l.clock with
  | some s =>
    if n < 1 <<< s.width then .ok (s.write u (BitVec.ofNat s.width n))
    else .error (.outOfRange (.clockSequence s.width))
  | none => .error (.notSupported .clockSequence)

/-- The node id. -/
def nodeId : Except Error NodeId :=
  if l.hasNode then .ok (Slice.node.read u) else .error (.notSupported .nodeId)

/-- Writes the node id. -/
def setNodeId (n : NodeId) : Except Error Uuid :=
  if l.hasNode then .ok (Slice.node.write u n) else .error (.notSupported .nodeId)

/-- The domain of the local id. -/
def domain : Except Error LocalDomain :=
  if l.hasLocalId then .ok ⟨Slice.clockLow.read u⟩ else .error (.notSupported .domain)

/-- Writes the domain of the local id. -/
def setDomain (d : LocalDomain) : Except Error Uuid :=
  if l.hasLocalId then .ok (Slice.clockLow.write u d.number) else .error (.notSupported .domain)

/-- The local id. -/
def localId : Except Error (BitVec 32) :=
  if l.hasLocalId then .ok (Slice.timeLow.read u) else .error (.notSupported .localId)

/-- Writes the local id. -/
def setLocalId (n : BitVec 32) : Except Error Uuid :=
  if l.hasLocalId then .ok (Slice.timeLow.write u n) else .error (.notSupported .localId)

/-- The bits of a data block in their places. -/
def dataMask (b : Block) : Except Error Uuid :=
  if (l.block b).isEmpty then .error (.notSupported b.unsupported) else .ok ⟨maskOf (l.block b)⟩

/-- A data block: its bits in their places, all others zero. -/
def data (b : Block) : Except Error Uuid :=
  (l.dataMask b).map fun m => ⟨u.bits &&& m.bits⟩

/-- Writes those bits of a UUID that belong to a data block. -/
def setData (b : Block) (new : Uuid) : Except Error Uuid :=
  (l.dataMask b).map fun m => ⟨blend u.bits new.bits m.bits⟩

end Layout

namespace Uuid

/-- The bits that belong to neither the version nor the standard variant. -/
def payloadMask : Uuid := ⟨maskOf Layout.payload⟩

/-- The payload bits in their places, all others zero. -/
def payload (u : Uuid) : Uuid := ⟨u.bits &&& payloadMask.bits⟩

/-- Writes the payload bits of another UUID. -/
def setPayload (u new : Uuid) : Uuid := ⟨blend u.bits new.bits payloadMask.bits⟩

/-- The layout of the version that a UUID carries. -/
def layout (u : Uuid) : Layout := Layout.ofVersion u.version

end Uuid

end UuidForge
