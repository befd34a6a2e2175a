import UuidForge.Generator.Source
import UuidForge.Uuid.Layout

/-!
# Generators of version 7

A version 7 UUID holds milliseconds since 1970, the clock inside the millisecond, a sequence and 48
random bits. The first three come from a counter, so the UUIDs of one counter ascend. While the
counter is exhausted the generator reads its clock again and again.
-/

namespace UuidForge

/-- The counter that a generator uses. -/
inductive CounterDomain
  /-- The counter that generators share. -/
  | shared
  /-- A counter of the generator's own. -/
  | own (counter : Counter)
  deriving DecidableEq, Repr

namespace CounterDomain

/-- Takes the next value for a candidate, if there is one. -/
def next (c : Candidate) : CounterDomain → OnHost (Option CounterValue × CounterDomain)
  | shared => fun h =>
    let (v, counter) := h.counter.next c
    ((v, shared), { h with counter })
  | own k =>
    let (v, k) := k.next c
    return (v, own k)

end CounterDomain

/-- The UUID of version 7 that carries a value of the counter; the other bits are those of `u`. -/
def CounterValue.uuid (v : CounterValue) (u : Uuid) : Except Error Uuid := do
  let u ← (Layout.ofVersion .v7).setTimestamp u (v.milliseconds * Ticks.perMillisecond)
  let u := Slice.timeHi.write u v.clock
  let u := Slice.clockSequence.write u v.sequence
  return u.stamp .v7 .rfc4122

/-- A generator of version 7. -/
structure UnixTime where
  source : TimeSource := .system
  counter : CounterDomain
  /-- How many readings the generator takes before it gives up on a clock that stands still. The
  bound makes a wait end in any case: a wait without bound that ends takes the same steps under
  every patience that is long enough, and one that never ends is the error `clockStalled` under
  all. -/
  patience : Nat := 0x400000

namespace UnixTime

/-- Reads the clock until the counter has a value, at most the given number of times. -/
def await (seed : BitVec 16) : Nat → UnixTime → OnHost (Option CounterValue × UnixTime)
  | 0, g => return (none, g)
  | n + 1, g => do
    let (t, source) ← g.source.read
    let (v, counter) ← g.counter.next (Candidate.ofTicks t seed)
    match v with
    | some v => return (some v, { g with source, counter })
    | none => await seed n { g with source, counter }

/-- The seed of the sequence in 16 random octets: octets 8 and 9. -/
def seedOf (u : Uuid) : BitVec 16 := u.bits.extractLsb' 48 16

/-- **The next UUID.** -/
def next (g : UnixTime) : OnHost (Except Error Uuid × UnixTime) := do
  let u ← Host.drawUuid
  let (v, g) ← await (seedOf u) g.patience g
  match v with
  | some v => return (v.uuid u, g)
  | none => return (.error .clockStalled, g)

end UnixTime

end UuidForge
