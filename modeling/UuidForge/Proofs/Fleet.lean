import Mathlib.Data.Nat.Notation
import Mathlib.Logic.Function.Basic
import UuidForge.Generator.Basic

/-!
# Generators on one host

A `Fleet` is a host with any number of generators. In a run its generators are asked in any order,
and in between the clocks of the host move as they like. `w.after es n` is the fleet after the
first `n` events.

* `Fleet.generator_step_self`, `Fleet.generator_step_of_ne`: an answer changes the generator that
  was asked and no other.
-/

namespace UuidForge

/-- A host with generators. -/
structure Fleet where
  host : Host
  generator : ℕ → Generator

namespace Fleet

/-- What can happen. -/
inductive Event
  /-- Generator `i` is asked. -/
  | ask (i : ℕ) (r : Request)
  /-- The clocks of the host move. -/
  | pass (wall : Instant) (mono : Span)

/-- The answer of generator `i`, with the generator and the host after it. -/
def answer (w : Fleet) (i : ℕ) (r : Request) : (Except Error Uuid × Generator) × Host :=
  (w.generator i).answer r w.host

/-- The fleet after an event. -/
def step (w : Fleet) : Event → Fleet
  | .ask i r =>
    { host := (w.answer i r).2, generator := Function.update w.generator i (w.answer i r).1.2 }
  | .pass wall mono => { w with host := { w.host with wall, mono } }

/-- **The fleet after the first `n` events.** -/
def after (w : Fleet) (es : ℕ → Event) : ℕ → Fleet
  | 0 => w
  | n + 1 => (w.after es n).step (es n)

variable {w : Fleet} {i : ℕ} {r : Request}

theorem generator_step_self : (w.step (.ask i r)).generator i = (w.answer i r).1.2 :=
  Function.update_self ..

theorem generator_step_of_ne {j : ℕ} (h : j ≠ i) :
    (w.step (.ask i r)).generator j = w.generator j :=
  Function.update_of_ne h ..

end Fleet

end UuidForge
