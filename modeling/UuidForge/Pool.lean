import UuidForge.Generator.Basic

/-!
# Pools of generators

A pool hands every request to one of its members, a generator that comes from a factory. The member
leaves the idle ones first in, first out, answers, and comes back. A new member is made when none is
idle, and one that comes back to a full pool, or to a pool that was disposed of, is disposed of.

While a member is out and before it answers, others may turn to the pool: an errand is one such
call. Requests that run into each other this way nest, and each of them takes one errand at most, so
the list of errands bounds the nesting.

The journal of a pool tells what happened to its members, in order.
-/

namespace UuidForge

/-- Makes the generator of a member, given how many were made before it. The second component is a
generator state of the member's own, in place of the one on the host. -/
abbrev MemberFactory := Nat → OnHost (Generator × Option GeneratorState)

/-- A generator in a pool. -/
structure PoolMember where
  /-- How many members were made before this one. -/
  index : Nat
  generator : Generator
  /-- The generator state that the generator advances, unless it is the one on the host. -/
  state : Option GeneratorState

/-- Has a member answer a request on its own state. -/
def PoolMember.answer (m : PoolMember) (q : Request) :
    OnHost (Except Error Uuid × PoolMember) := do
  match m.state with
  | none =>
    let (r, generator) ← m.generator.answer q
    return (r, { m with generator })
  | some own =>
    let outer ← Host.exchange own
    let (r, generator) ← m.generator.answer q
    let own ← Host.exchange outer
    return (r, { m with generator, state := some own })

/-- A call to a pool while one of its members is out. -/
inductive Errand
  /-- Asks for a new UUID. -/
  | fresh
  /-- Disposes of the pool. -/
  | dispose
  /-- Counts the idle members. -/
  | count
  deriving DecidableEq, Repr

/-- What happens in a pool. -/
inductive PoolEvent
  /-- The member with an index was made. -/
  | created (index : Nat)
  /-- The member with an index was disposed of. -/
  | disposed (index : Nat)
  /-- An errand for a UUID was answered. -/
  | nested (result : Except Error Uuid)
  /-- An errand has disposed of the pool. -/
  | closed
  /-- An errand found a number of idle members. -/
  | counted (idle : Nat)

/-- A pool of generators of one version and variant. -/
structure Pool where
  factory : MemberFactory
  /-- The greatest number of idle members. -/
  capacity : Nat
  version : Version
  variant : Variant
  requiresInput : Bool
  /-- The idle members, the next one first. -/
  idle : List PoolMember
  /-- How many members were made. -/
  made : Nat
  isDisposed : Bool := false
  /-- All events, oldest first. -/
  journal : List PoolEvent := []

namespace Pool

/-- Writes an event down. -/
def note (p : Pool) (e : PoolEvent) : Pool := { p with journal := p.journal ++ [e] }

/-- **A pool for a number of idle members**, with its first member. The first member tells the
version and variant of all. -/
def create (factory : MemberFactory) (capacity : Nat) : OnHost (Except Error Pool) := do
  if capacity = 0 then return .error (.outOfRange .capacity)
  else
    let (generator, state) ← factory 0
    return .ok {
      factory, capacity
      version := generator.version
      variant := generator.variant
      requiresInput := generator.requiresInput
      idle := [{ index := 0, generator, state }]
      made := 1
      journal := [.created 0] }

/-- The number of idle members. -/
def idleCount (p : Pool) : Nat := p.idle.length

/-- Makes a member. -/
def make (p : Pool) : OnHost (PoolMember × Pool) := do
  let (generator, state) ← p.factory p.made
  return ({ index := p.made, generator, state },
    { p with made := p.made + 1 }.note (.created p.made))

/-- The member has the version and variant of the pool. -/
def accepts (p : Pool) (m : PoolMember) : Bool :=
  m.generator.version = p.version && m.generator.variant = p.variant

/-- Takes a member out. A new member of another version or variant is disposed of at once. -/
def checkOut (p : Pool) : OnHost (Except Error PoolMember × Pool) := do
  if p.isDisposed then return (.error .disposed, p)
  else match p.idle with
    | m :: idle => return (.ok m, { p with idle })
    | [] =>
      let (m, p) ← p.make
      if p.accepts m then return (.ok m, p)
      else return (.error (.invalidOperation .factoryChanged), p.note (.disposed m.index))

/-- Takes a member back, or disposes of it. -/
def checkIn (p : Pool) (m : PoolMember) : Pool :=
  if p.isDisposed || p.capacity ≤ p.idle.length then p.note (.disposed m.index)
  else { p with idle := p.idle ++ [m] }

/-- **Disposes of a pool** and of all idle members. -/
def dispose (p : Pool) : Pool :=
  { p with
    isDisposed := true
    idle := []
    journal := p.journal ++ p.idle.map fun m => .disposed m.index }

/-- **Answers a request**, given the errands that are waiting. An errand is run when a member is
out; what remains of the errands is handed on. -/
def serve (waiting : List Errand) (q : Request) (p : Pool) :
    OnHost (Except Error Uuid × List Errand × Pool) := do
  let (member, p) ← p.checkOut
  match member with
  | .error e => return (.error e, waiting, p)
  | .ok m =>
    let (waiting, p) ← match waiting with
      | [] => pure ([], p)
      | .fresh :: rest => do
        let (r, rest, p) ← serve rest .fresh p
        pure (rest, p.note (.nested r))
      | .dispose :: rest => pure (rest, p.dispose.note .closed)
      | .count :: rest => pure (rest, p.note (.counted p.idleCount))
    let (r, m) ← m.answer q
    return (r, waiting, p.checkIn m)

/-- Answers a request while nobody else turns to the pool. -/
def answer (p : Pool) (q : Request) : OnHost (Except Error Uuid × Pool) := do
  let (r, _, p) ← p.serve [] q
  return (r, p)

end Pool

end UuidForge
