import UuidForge.Time.Ticks

/-!
# Time scales

A timestamp field counts units of some ticks from an epoch in a fixed number of bits.

* `TimeScale.count?_isSome_iff`: a point of time has a count exactly from the first to the last
  point that the field can tell.
-/

namespace UuidForge

/-- How a timestamp field counts time. -/
structure TimeScale where
  /-- The point of time with count zero, in ticks since 1970. -/
  epoch : Int
  /-- Ticks per unit. -/
  unit : Nat
  /-- Bits of the count. -/
  width : Nat
  deriving DecidableEq, Repr

namespace TimeScale

/-- Ticks since the start of the Gregorian calendar in 60 bits. -/
def gregorian : TimeScale := ⟨Ticks.gregorianEpoch.toInt, 1, 60⟩

/-- Milliseconds since 1970 in 48 bits. -/
def unixMilliseconds : TimeScale := ⟨0, 10000, 48⟩

/-- How many counts the scale has. -/
def size (s : TimeScale) : Nat := 1 <<< s.width

/-- The first point of time on the scale. -/
def first (s : TimeScale) : Int := s.epoch

/-- The last point of time on the scale. -/
def last (s : TimeScale) : Int := s.epoch + s.size * s.unit - 1

/-- The count of a point of time, if the scale reaches it. -/
def count? (s : TimeScale) (t : Ticks) : Option Nat :=
  let n := (t.toInt - s.epoch) / s.unit
  if 0 ≤ n ∧ n < s.size then some n.toNat else none

/-- The first point of time with a given count. -/
def point (s : TimeScale) (n : Nat) : Ticks := Int64.ofInt (s.epoch + n * s.unit)

/-- **The scale reaches exactly the points from `first` to `last`.** -/
theorem count?_isSome_iff {s : TimeScale} (h : 0 < s.unit) (t : Ticks) :
    (s.count? t).isSome ↔ s.first ≤ t.toInt ∧ t.toInt ≤ s.last := by
  have hu : (0 : Int) < s.unit := by omega
  have h0 : 0 ≤ (t.toInt - s.epoch) / s.unit ↔ 0 ≤ t.toInt - s.epoch :=
    Int.ediv_nonneg_iff_of_pos hu
  have h1 : (t.toInt - s.epoch) / s.unit < s.size ↔
      t.toInt - s.epoch < s.size * s.unit := Int.ediv_lt_iff_lt_mul hu
  simp only [count?, first, last]
  split
  · rename_i h
    rw [h0, h1] at h
    simp only [Option.isSome_some, true_iff]
    omega
  · rename_i h
    rw [h0, h1] at h
    simp only [Option.isSome_none, Bool.false_eq_true, false_iff]
    omega

end TimeScale

end UuidForge
