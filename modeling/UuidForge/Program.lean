import UuidForge.Generator.Basic

/-!
# Programs with several generator states

The generator state on a host belongs to all generators of a program. A program may make further
states and bind generators to them. A generator is bound to one state: the clock domain that it
advances, unless it has a clock of its own, and the random node id that lasts are those of that
state. While a generator answers, its state stands on the host.
-/

namespace UuidForge

/-- A generator state of a program. -/
inductive StateName
  /-- The one that belongs to all. -/
  | common
  /-- One of those that were made beside it. -/
  | made (i : Nat)
  deriving DecidableEq, Repr

/-- A host with further generator states. -/
structure Program where
  /-- The host, with the state that belongs to all. -/
  host : Host
  /-- The further states. -/
  made : Nat → GeneratorState

/-- A step of a program. -/
abbrev OnProgram (α : Type) := StateM Program α

namespace Program

/-- The generator state with a name. -/
def state (p : Program) : StateName → GeneratorState
  | .common => p.host.state
  | .made i => p.made i

/-- The host as the generators of a state find it. -/
def view (p : Program) (n : StateName) : Host := { p.host with state := p.state n }

/-- The program once the generators of a state have left the host. -/
def put (p : Program) (n : StateName) (h : Host) : Program :=
  match n with
  | .common => { p with host := h }
  | .made i =>
    { host := { h with state := p.host.state }
      made := fun j => if j = i then h.state else p.made j }

/-- Takes a step on a state, which stands on the host meanwhile. -/
def on {α : Type} (n : StateName) (act : OnHost α) : OnProgram α := fun p =>
  let (a, h) := act (p.view n)
  (a, p.put n h)

end Program

/-- A generator that is bound to a state. -/
structure Bound where
  generator : Generator
  state : StateName

/-- **Answers a request on the state** that the generator is bound to. -/
def Bound.answer (g : Bound) (q : Request) : OnProgram (Except Error Uuid × Bound) := do
  let (r, generator) ← Program.on g.state (g.generator.answer q)
  return (r, { g with generator })

end UuidForge
