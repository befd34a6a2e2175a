import UuidForge.Program

/-!
# Building generators

A generator of version 1, 6 or 7 can be given a source of time, an initial clock sequence, node ids
and a generator state. A generator of version 1 or 6 with any of the first three keeps its clock to
itself; the others advance the domain of their generator state that belongs to their node ids. A
generator of version 7 has a counter of its own and takes neither node ids nor a clock sequence.
-/

namespace UuidForge

/-- The node ids asked for. -/
inductive NodeSetting
  /-- One of the general choices. -/
  | source (s : NodeSource)
  /-- A supply of one's own. -/
  | provider (p : NodeProvider)
  /-- A node id, which must have six octets. -/
  | octets (xs : Octets)

/-- What a generator is built from. -/
structure Builder where
  version : Version
  source : Option TimeSource := none
  clockSequence : Option Nat := none
  nodes : Option NodeSetting := none
  /-- The generator state in place of the one that belongs to all. -/
  state : Option StateName := none

namespace Builder

/-- Starts to build a generator of version 1, 6 or 7. -/
def ofVersion (v : Version) : Except Error Builder :=
  if [Version.v1, .v6, .v7].contains v then .ok { version := v }
  else .error (.notSupported .builderVersion)

/-- The supply of node ids, and whether it is one's own. -/
def provider (b : Builder) : OnHost (Except Error (Option NodeProvider × Bool)) :=
  match b.nodes with
  | none => return .ok (some .hardware, false)
  | some (.source s) => do return .ok (← s.resolve, false)
  | some (.provider p) => return .ok (some p, true)
  | some (.octets xs) =>
    if xs.length = 6 then return .ok (some (.fixed (NodeId.ofOctets xs)), true)
    else return .error (.outOfRange .nodeLength)

/-- The clock domain: one of its own if any input is one's own. -/
def clock (b : Builder) (nodes : Option NodeProvider) (ownNodes : Bool) : OnHost ClockDomain := do
  if ownNodes || b.source.isSome || b.clockSequence.isSome then
    let initial ← match b.clockSequence with
      | some n => pure (BitVec.ofNat 14 n)
      | none => Host.drawSequence
    return .own (ClockState.new initial)
  else return .shared (kindOf nodes)

/-- Builds a generator of version 1 or 6. -/
def buildTimeBased (b : Builder) : OnHost (Except Error Generator) := do
  match ← b.provider with
  | .error e => return .error e
  | .ok (nodes, ownNodes) =>
    let clock ← b.clock nodes ownNodes
    return (TimeBased.make? b.version (b.source.getD .system) nodes clock).map .timeBased

/-- **Builds the generator** on a host with its state. The clock sequence is checked first. -/
def build (b : Builder) : OnHost (Except Error Generator) :=
  if b.clockSequence.any fun n => decide (0x4000 ≤ n) then
    return .error (.outOfRange (.clockSequence 14))
  else if b.version = .v7 then
    if b.nodes.isSome || b.clockSequence.isSome then
      return .error (.notSupported .builderInputs)
    else return .ok (.unixTime { source := b.source.getD .system, counter := .own {} })
  else b.buildTimeBased

/-- The state of the generator: the one given, else the one that belongs to all. -/
def stateName (b : Builder) : StateName := b.state.getD .common

/-- **Builds the generator and binds it to its state.** -/
def buildBound (b : Builder) : OnProgram (Except Error Bound) := do
  let r ← Program.on b.stateName b.build
  return r.map fun generator => { generator, state := b.stateName }

end Builder

end UuidForge
