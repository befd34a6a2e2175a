import UuidForge.Time.Ticks

/-!
# The counter of version 7

Every version 7 UUID takes a value of three parts: milliseconds, a 12-bit clock inside the
millisecond and a 14-bit sequence. A candidate with a later time is adopted with a random sequence
whose top bit is cleared. Otherwise the value before is incremented, with a carry from the sequence
into the clock, unless the candidate lies more than ten seconds back: then it is adopted, and the
order is lost. When the clock is used up too, there is no value until the next millisecond.

* `Counter.value?_eq_none_iff`: the counter is exhausted exactly at the last value of a millisecond
  that the candidate neither passes nor falls ten seconds behind.
-/

namespace UuidForge

/-- The ordered part of a version 7 UUID. -/
structure CounterValue where
  milliseconds : Int64
  clock : BitVec 12
  sequence : BitVec 14
  deriving DecidableEq, Repr

/-- A reading of the clock with a random seed for the sequence. -/
structure Candidate where
  milliseconds : Int64
  clock : BitVec 16
  seed : BitVec 16
  deriving DecidableEq, Repr

namespace Candidate

/-- The clock inside the millisecond at a point of time: 4096 steps. -/
def ofTicks (t : Ticks) (seed : BitVec 16) : Candidate where
  milliseconds := Int64.ofInt (t.toInt / 10000)
  clock := BitVec.ofNat 16 ((t.toInt % 10000).toNat * 4096 / 10000)
  seed := seed

/-- The value that adopts a candidate. The top bit of the sequence is left free for increments. -/
def adopted (c : Candidate) : CounterValue where
  milliseconds := c.milliseconds
  clock := c.clock.setWidth 12
  sequence := (c.seed.setWidth 13).setWidth 14

end Candidate

namespace CounterValue

/-- The first value has the later time, or the same time. -/
def SameOrLater (p v : CounterValue) : Prop :=
  v.milliseconds < p.milliseconds ∨ v.milliseconds = p.milliseconds ∧ v.clock ≤ p.clock

instance (p v : CounterValue) : Decidable (p.SameOrLater v) :=
  inferInstanceAs (Decidable (_ ∨ _))

/-- How far time may go back, in milliseconds, without a loss of order. -/
def rollbackAllowance : Int64 := 10000

/-- The largest clock and the largest sequence. -/
def IsLast (p : CounterValue) : Prop := p.sequence = 0x3fff ∧ p.clock = 0xfff

instance (p : CounterValue) : Decidable p.IsLast := inferInstanceAs (Decidable (_ ∧ _))

/-- **The value after `p` for a reading `v`**, if there is one. -/
def after (p v : CounterValue) : Option CounterValue :=
  if ¬ p.SameOrLater v then some v
  else if p.milliseconds - v.milliseconds > rollbackAllowance then some v
  else if p.sequence < 0x3fff then some { p with sequence := p.sequence + 1 }
  else if p.clock < 0xfff then some { p with clock := p.clock + 1, sequence := v.sequence }
  else none

end CounterValue

/-- A counter: the last value handed out. -/
structure Counter where
  last : Option CounterValue := none
  deriving DecidableEq, Repr

namespace Counter

/-- The next value for a candidate, if there is one. -/
def value? (k : Counter) (c : Candidate) : Option CounterValue :=
  match k.last with
  | some p => p.after c.adopted
  | none => some c.adopted

/-- **Takes the next value** for a candidate. An exhausted counter stays as it was. -/
def next (k : Counter) (c : Candidate) : Option CounterValue × Counter :=
  let value := k.value? c
  (value, ⟨value <|> k.last⟩)

/-- **Exhaustion.** -/
theorem value?_eq_none_iff (k : Counter) (c : Candidate) :
    k.value? c = none ↔ ∃ p, k.last = some p ∧ p.SameOrLater c.adopted ∧
      ¬ p.milliseconds - c.adopted.milliseconds > CounterValue.rollbackAllowance ∧
      ¬ p.sequence < 0x3fff ∧ ¬ p.clock < 0xfff := by
  cases hk : k.last with
  | none => simp [value?, hk]
  | some p =>
    simp only [value?, hk, CounterValue.after, Option.some.injEq, exists_eq_left']
    split
    · simp_all
    · split
      · simp_all
      · split
        · simp_all
        · split <;> simp_all

/-- An exhausted counter stays as it was. -/
theorem next_of_value?_eq_none {k : Counter} {c : Candidate} (h : k.value? c = none) :
    (k.next c).2 = k := by
  simp [next, h]

end Counter

end UuidForge
