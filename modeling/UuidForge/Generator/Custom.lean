import UuidForge.Generator.Source
import UuidForge.Uuid.Layout

/-!
# Custom layouts

A version 8 UUID has a layout of one's own: 16 random octets are handed to a fill, which may write
over any bits; version and variant are stamped last.

The example layout holds whole seconds since 2020 in `time_low`, the fraction of the second in 16
bits in `time_mid`, one octet of the node id and a sequence number in the last two octets.
-/

namespace UuidForge

/-- What a fill gets to know. -/
structure FillContext where
  /-- The time since the epoch of the generator. -/
  time : Ticks
  node : Option NodeId
  deriving DecidableEq, Repr

/-- The node id; a generator without node ids has none. -/
def FillContext.nodeId (c : FillContext) : Except Error NodeId :=
  match c.node with
  | some n => .ok n
  | none => .error (.notSupported .nodeId)

namespace ExampleLayout

/-- One past the last point of time, in ticks since 2020. -/
def bound : Int := 0x100000000 * 10000000

/-- The refusal of a time out of range. -/
def outOfRange : Error :=
  .outOfRange (.timestamp Ticks.epoch2020.toInt (Ticks.epoch2020.toInt + bound - 1))

/-- The octet of the node id. -/
abbrev nodeOctet : Slice := ⟨8, 8⟩

/-- The octet of the sequence number. -/
abbrev sequenceOctet : Slice := ⟨0, 8⟩

/-- **Lays out a UUID**, given the last sequence number. The sequence moves on only if nothing
fails. -/
def fill (c : FillContext) (sequence : BitVec 8) (u : Uuid) : Except Error Uuid × BitVec 8 :=
  let seconds := c.time.toInt / 10000000
  if 0 ≤ seconds ∧ seconds < 0x100000000 then
    match c.nodeId with
    | .error e => (.error e, sequence)
    | .ok node =>
      let fraction := (c.time.toInt % 10000000).toNat * 65536 / 10000000
      let sequence := sequence + 1
      let u := Slice.timeLow.write u (BitVec.ofInt 32 seconds)
      let u := Slice.timeMid.write u (BitVec.ofNat 16 fraction)
      let u := nodeOctet.write u (node.octet 4)
      (.ok (sequenceOctet.write u sequence), sequence)
  else (.error outOfRange, sequence)

end ExampleLayout

/-- How a custom UUID is laid out. -/
inductive Fill
  /-- A function of the context and the random octets. -/
  | function (f : FillContext → Uuid → Except Error Uuid)
  /-- A function that remembers what it was given before, the last first. -/
  | recalling (f : List (FillContext × Uuid) → FillContext → Uuid → Except Error Uuid)
      (past : List (FillContext × Uuid))
  /-- The example layout with a sequence of its own, and the last number. -/
  | exampleLayout (sequence : BitVec 8)
  /-- The example layout with the sequence of the host. -/
  | sharedExample

namespace Fill

/-- The example layout from its first number, zero. -/
def newExample : Fill := .exampleLayout 0xff

/-- Leaves the random octets as they are. -/
def keep : Fill := .function fun _ u => .ok u

/-- Sets all bits. -/
def ones : Fill := .function fun _ _ => .ok Uuid.max

/-- Writes the time in the first eight octets. -/
def time : Fill := .function fun c u => .ok (Slice.write ⟨64, 64⟩ u c.time.toBitVec)

/-- Writes the node id in the last six octets. -/
def node : Fill := .function fun c u => c.nodeId.map (Slice.node.write u)

/-- Always fails. -/
def unavailable : Fill := .function fun _ _ => .error (.invalidOperation .noLayout)

/-- Lays out a UUID. -/
def run (c : FillContext) (u : Uuid) : Fill → OnHost (Except Error Uuid × Fill)
  | function f => return (f c u, function f)
  | recalling f past => return (f past c u, recalling f ((c, u) :: past))
  | exampleLayout sequence =>
    let (r, sequence) := ExampleLayout.fill c sequence u
    return (r, exampleLayout sequence)
  | sharedExample => fun h =>
    let (r, sequence) := ExampleLayout.fill c h.exampleSequence u
    ((r, sharedExample), { h with exampleSequence := sequence })

end Fill

/-- A generator of version 8 with a layout of one's own. -/
structure Custom where
  epoch : Ticks
  source : TimeSource := .system
  nodes : Option NodeProvider
  fill : Fill

namespace Custom

/-- A generator with a choice of node ids. -/
def create (epoch : Ticks) (nodes : NodeSource) (fill : Fill) : OnHost Custom := do
  return { epoch, nodes := ← nodes.resolve, fill }

/-- **The next UUID.** The node id is read before the random octets are drawn. -/
def next (g : Custom) : OnHost (Except Error Uuid × Custom) := do
  let (t, source) ← g.source.read
  let (node, nodes) ← readNode g.nodes
  let u ← Host.drawUuid
  let (r, fill) ← g.fill.run { time := t - g.epoch, node } u
  return (r.map fun u => u.stamp .v8 .rfc4122, { g with source, nodes, fill })

end Custom

end UuidForge
