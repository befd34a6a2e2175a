import UuidForge.Generator.Source
import UuidForge.Uuid.Layout

/-!
# Time-based generators

Versions 1 and 6 are made of a reading of the clock, a clock sequence and a node id. The clock
sequence is advanced in a clock domain: one of the two that the generators of a state share, or one
of the generator's own. Without node ids the node field is random in every UUID, which only
version 6 allows.
-/

namespace UuidForge

/-- The clock domain that a generator advances. -/
inductive ClockDomain
  /-- A domain of the generator state. -/
  | shared (kind : ClockKind)
  /-- A domain of the generator's own. -/
  | own (clock : ClockState)
  deriving DecidableEq, Repr

namespace ClockDomain

/-- Advances a domain. -/
def refresh (t : Ticks) (node : Option NodeId) : ClockDomain → OnHost (ClockSequence × ClockDomain)
  | shared k => do return (← Host.refresh k t node, shared k)
  | own c =>
    let (r, c) := c.refresh t node
    return (r.sequence, own c)

end ClockDomain

/-- What tells the time-based UUIDs of a version apart. -/
structure TimeStamp where
  time : Ticks
  sequence : ClockSequence
  node : NodeId
  deriving DecidableEq, Repr

namespace TimeStamp

/-- **The UUID of version 1 or 6** for a stamp. -/
def uuid (v : Version) (s : TimeStamp) : Except Error Uuid := do
  let l := Layout.ofVersion v
  let u ← l.setTimestamp Uuid.nil s.time
  let u ← l.setClockSequence u s.sequence.toNat
  let u ← l.setNodeId u s.node
  return u.stamp v .rfc4122

/-- **The UUID of version 2** for a stamp, a domain and a local id. Only the upper six bits of the
clock sequence are kept. -/
def dceUuid (s : TimeStamp) (d : LocalDomain) (localId : BitVec 32) : Except Error Uuid := do
  let l := Layout.ofVersion .v2
  let u ← l.setTimestamp Uuid.nil s.time
  let u ← l.setClockSequence u (s.sequence.toNat / 256)
  let u ← l.setNodeId u s.node
  let u ← l.setDomain u d
  let u ← l.setLocalId u localId
  return u.stamp .v2 .rfc4122

end TimeStamp

/-- A generator of version 1 or 6. -/
structure TimeBased where
  version : Version
  source : TimeSource := .system
  nodes : Option NodeProvider
  clock : ClockDomain

namespace TimeBased

/-- A generator of its parts. Other versions are refused, and version 1 without node ids. -/
def make? (version : Version) (source : TimeSource) (nodes : Option NodeProvider)
    (clock : ClockDomain) : Except Error TimeBased :=
  if version = .v1 then
    if nodes.isNone then .error (.notSupported .nodeRequired)
    else .ok { version, source, nodes, clock }
  else if version = .v6 then .ok { version, source, nodes, clock }
  else .error (.notSupported .timeBasedVersion)

/-- A generator with a choice of node ids on the generator state. -/
def create (version : Version) (nodes : NodeSource) : OnHost (Except Error TimeBased) := do
  let nodes ← nodes.resolve
  return make? version .system nodes (.shared (kindOf nodes))

/-- A generator with a supply of node ids on the generator state. -/
def bound (version : Version) (nodes : Option NodeProvider) : TimeBased :=
  { version, nodes, clock := .shared (kindOf nodes) }

/-- The node field is random in every UUID. -/
def isRandomized (g : TimeBased) : Bool := g.nodes.isNone

/-- **The next stamp.** The clock is read first, then the node id; a random node field is drawn
after the clock domain has advanced. -/
def stamp (g : TimeBased) : OnHost (TimeStamp × TimeBased) := do
  let (time, source) ← g.source.read
  let (node?, nodes) ← readNode g.nodes
  let (sequence, clock) ← g.clock.refresh time node?
  let node ← match node? with
    | some n => pure n
    | none => Host.drawNode
  return ({ time, sequence, node }, { g with source, nodes, clock })

/-- The next UUID. A reading out of range has advanced the clock domain all the same. -/
def next (g : TimeBased) : OnHost (Except Error Uuid × TimeBased) := do
  let (s, g) ← g.stamp
  return (s.uuid g.version, g)

end TimeBased

/-- A generator of version 2, on the inputs of a generator of version 1. -/
structure DceSecurity where
  base : TimeBased
  ids : LocalIdSource

namespace DceSecurity

/-- A generator with a choice of node ids on the generator state. -/
def create (nodes : NodeSource) (ids : LocalIdSource) : OnHost (Except Error DceSecurity) := do
  return (← TimeBased.create .v1 nodes).map fun base => { base, ids }

/-- **The next UUID for a domain.** The local id is looked up before the clock domain moves. -/
def next (g : DceSecurity) (d : LocalDomain) (given : Option (BitVec 32)) :
    OnHost (Except Error Uuid × DceSecurity) := do
  match g.ids.lookup (← get) d given with
  | .error e => return (.error e, g)
  | .ok localId =>
    let (s, base) ← g.base.stamp
    return (s.dceUuid d localId, { g with base })

end DceSecurity

end UuidForge
