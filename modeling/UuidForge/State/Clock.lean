import UuidForge.Node
import UuidForge.Time.Ticks

/-!
# Clock states

A clock state hands out clock sequences so that no two time-based UUIDs share timestamp, clock
sequence and node id. It keeps the last timestamp, the clock sequence of 14 bits and the last node
id, and increments the sequence whenever the time does not advance or the node id changes.

* `ClockState.sequence_refresh`: the sequence handed out is the one kept, plus one if it was due.
-/

namespace UuidForge

/-- A clock sequence; it wraps around. -/
abbrev ClockSequence := BitVec 14

/-- What a clock domain remembers. -/
structure ClockState where
  /-- The last timestamp; `Ticks.never` before the first one. -/
  last : Ticks
  sequence : ClockSequence
  node : Option NodeId
  deriving DecidableEq, Repr

namespace ClockState

/-- A clock state that has seen nothing yet. -/
def new (sequence : ClockSequence) : ClockState := { last := Ticks.never, sequence, node := none }

/-- The node id differs from the one seen before. -/
def nodeChanged (c : ClockState) (node : Option NodeId) : Bool :=
  match c.node, node with
  | some old, some new => old != new
  | _, _ => false

/-- A node id is seen for the first time. -/
def nodeAppeared (c : ClockState) (node : Option NodeId) : Bool := c.node.isNone && node.isSome

/-- The sequence has to move on for a timestamp and a node id. -/
def incrementDue (c : ClockState) (t : Ticks) (node : Option NodeId) : Bool :=
  decide (t ≤ c.last) || c.nodeChanged node

/-- What a refresh hands out. -/
structure Refresh where
  sequence : ClockSequence
  /-- Something other than the timestamp is new. -/
  changed : Bool
  deriving DecidableEq, Repr

/-- **Records a generation** at time `t` with a node id, if it has one. -/
def refresh (c : ClockState) (t : Ticks) (node : Option NodeId) : Refresh × ClockState :=
  let due := c.incrementDue t node
  let sequence := if due then c.sequence + 1 else c.sequence
  ({ sequence, changed := due || c.nodeAppeared node },
    { last := t, sequence, node := node <|> c.node })

theorem sequence_refresh (c : ClockState) (t : Ticks) (node : Option NodeId) :
    (c.refresh t node).1.sequence =
      if c.incrementDue t node then c.sequence + 1 else c.sequence := rfl

/-- The sequence handed out is the one remembered. -/
theorem refresh_sequence_eq (c : ClockState) (t : Ticks) (node : Option NodeId) :
    (c.refresh t node).2.sequence = (c.refresh t node).1.sequence := rfl

end ClockState

end UuidForge
