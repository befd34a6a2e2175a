import UuidForge.Error
import UuidForge.Host
import UuidForge.Uuid.Version

/-!
# Where generators take their inputs from

Time comes from the clock of the host or from readings of one's own; node ids from the hardware,
from entropy, from the generator state or from the caller; local ids from the host or the caller.
-/

namespace UuidForge

/-- A source of time. -/
inductive TimeSource
  /-- The clock of the host. -/
  | system
  /-- Readings of one's own, and the number of the next one. -/
  | readings (reading : Nat → Ticks) (next : Nat)

namespace TimeSource

/-- A source with readings of one's own. -/
def ofReadings (f : Nat → Ticks) : TimeSource := readings f 0

/-- A source that gives instants. -/
def ofInstants (f : Nat → Instant) : TimeSource := ofReadings fun i => Ticks.ofInstant (f i)

/-- Reading `i` of a list of runs that follows the reading `last`: each run repeats a reading some
times, and after the last run every reading is a millisecond later than the one before. -/
def runReading : List (Ticks × Nat) → Ticks → Nat → Ticks
  | [], last, i => last + Ticks.perMillisecond * Int64.ofNat (i + 1)
  | (t, n) :: rest, last, i =>
    if i < n then t else runReading rest (if n = 0 then last else t) (i - n)

/-- A source with the readings of a list of runs. -/
def ofRuns (runs : List (Ticks × Nat)) : TimeSource := ofReadings (runReading runs 0)

/-- Reads a source. -/
def read : TimeSource → OnHost (Ticks × TimeSource)
  | system => do return (← Host.now, system)
  | readings f i => return (f i, readings f (i + 1))

end TimeSource

/-- Which node ids a generator uses. -/
inductive NodeSource
  /-- None: the node field is random in every UUID. -/
  | none
  /-- The hardware address. -/
  | physical
  /-- A random node id for each generator. -/
  | volatile
  /-- The random node id of the generator state. -/
  | nonVolatile
  deriving DecidableEq, Repr

/-- A supply of node ids. -/
inductive NodeProvider
  /-- The hardware address of the host. -/
  | hardware
  /-- A hardware address that one looks up oneself. -/
  | watched (address : RefreshingCache (Option NodeId))
  /-- A random node id. -/
  | volatile (node : NodeId)
  /-- The random node id of the generator state. -/
  | nonVolatile
  /-- A given node id. -/
  | fixed (node : NodeId)
  /-- Given node ids in turn, and the number of the next one. -/
  | supplied (node : Nat → NodeId) (next : Nat)

/-- The supply that a choice of node ids stands for. -/
def NodeSource.resolve : NodeSource → OnHost (Option NodeProvider)
  | none => return Option.none
  | physical => return some .hardware
  | volatile => do return some (.volatile (← Host.drawNode))
  | nonVolatile => return some .nonVolatile

namespace NodeProvider

/-- Node ids of one's own that come round again. -/
def cycle (nodes : List NodeId) : NodeProvider :=
  supplied (fun i => nodes.getD (i % nodes.length) 0) 0

/-- The next node id. -/
def read : NodeProvider → OnHost (NodeId × NodeProvider)
  | hardware => fun h => ((h.nodeOf h.address, hardware), h)
  | watched a => fun h => ((h.nodeOf a, watched a), h)
  | volatile n => return (n, volatile n)
  | nonVolatile => do return (← Host.nonVolatileNode, nonVolatile)
  | fixed n => return (n, fixed n)
  | supplied f i => return (f i, supplied f (i + 1))

/-- The clock domain for the node ids of a supply. -/
def kind : NodeProvider → ClockKind
  | hardware => .physical
  | watched _ => .physical
  | _ => .random

end NodeProvider

/-- The clock domain for the node ids of a supply, if there is one. -/
def kindOf (nodes : Option NodeProvider) : ClockKind := (nodes.map NodeProvider.kind).getD .random

/-- Reads a supply of node ids, if there is one. -/
def readNode : Option NodeProvider → OnHost (Option NodeId × Option NodeProvider)
  | none => return (none, none)
  | some p => do
    let (n, p) ← p.read
    return (some n, some p)

/-- Where local ids come from. -/
inductive LocalIdSource
  /-- The user and the group of the host. -/
  | system
  /-- Given ids; a missing one is not known on this platform. -/
  | fixed (user group : Option (BitVec 32))
  deriving DecidableEq, Repr

namespace LocalIdSource

/-- A known id. -/
def known : Option (BitVec 32) → Except Error (BitVec 32)
  | some n => .ok n
  | none => .error .platformNotSupported

/-- The id of the user. -/
def user (h : Host) : LocalIdSource → Except Error (BitVec 32)
  | system => .ok h.userId
  | fixed n _ => known n

/-- The id of the group. -/
def group (h : Host) : LocalIdSource → Except Error (BitVec 32)
  | system => .ok h.groupId
  | fixed _ n => known n

/-- **The local id for a domain**: a given one, else the user for persons, the group for groups, and
zero for all others. -/
def lookup (s : LocalIdSource) (h : Host) (d : LocalDomain) :
    Option (BitVec 32) → Except Error (BitVec 32)
  | some n => .ok n
  | none =>
    if d = .person then s.user h
    else if d = .group then s.group h
    else .ok 0

end LocalIdSource

end UuidForge
