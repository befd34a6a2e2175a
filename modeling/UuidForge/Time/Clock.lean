import UuidForge.Time.Ticks

/-!
# Clocks

Two ways to turn readings of the wall clock into ticks.

* `SystemClock` runs on the monotonic clock from an anchor on the wall clock. At most once per
  second of monotonic time it checks the anchor, and moves it when the wall clock has drifted away
  by a second or more.
* `IncrementalClock` adds a tick for every reading that repeats the one before.
* `SystemClock.read_again`: a clock that is read again at the same moment stays as it is.
-/

namespace UuidForge

/-- A clock that runs on the monotonic clock and is anchored to the wall clock. -/
structure SystemClock where
  /-- The monotonic time at which the clock was made. -/
  origin : Span
  /-- The wall time that belongs to `origin`. -/
  base : Ticks
  /-- The time since `origin` of the last drift check. -/
  checked : Ticks
  deriving DecidableEq, Repr

namespace SystemClock

/-- A clock anchored at the present reading of both clocks. -/
def start (wall : Instant) (mono : Span) : SystemClock :=
  { origin := mono, base := Ticks.ofInstant wall, checked := 0 }

/-- Anchors a clock again when its time is a second or more away from the wall clock. -/
def resync (c : SystemClock) (wall : Instant) (elapsed : Ticks) : SystemClock :=
  let wall := Ticks.ofInstant wall
  let drift := wall - (c.base + elapsed)
  if drift.abs ≥ Ticks.perSecond then { c with base := wall - elapsed } else c

/-- **The reading of a clock**, and the clock after it. -/
def read (c : SystemClock) (wall : Instant) (mono : Span) : Ticks × SystemClock :=
  let elapsed := Ticks.ofSpan (mono - c.origin)
  let c :=
    if elapsed - c.checked ≥ Ticks.perSecond then
      { c with checked := elapsed }.resync wall elapsed
    else c
  (c.base + elapsed, c)

theorem checked_resync (c : SystemClock) (wall : Instant) (elapsed : Ticks) :
    (c.resync wall elapsed).checked = c.checked := by
  unfold resync
  dsimp only
  split <;> rfl

theorem origin_resync (c : SystemClock) (wall : Instant) (elapsed : Ticks) :
    (c.resync wall elapsed).origin = c.origin := by
  unfold resync
  dsimp only
  split <;> rfl

/-- A reading less than a second after the last drift check makes none. -/
theorem read_of_recent {c : SystemClock} {wall : Instant} {mono : Span}
    (h : ¬ Ticks.ofSpan (mono - c.origin) - c.checked ≥ Ticks.perSecond) :
    c.read wall mono = (c.base + Ticks.ofSpan (mono - c.origin), c) := by
  simp only [read, if_neg h]

/-- **A clock that is read again at the same moment** shows the same and stays as it is. -/
theorem read_again (c : SystemClock) (wall : Instant) (mono : Span) :
    (c.read wall mono).2.read wall mono = c.read wall mono := by
  by_cases hd : Ticks.ofSpan (mono - c.origin) - c.checked ≥ Ticks.perSecond
  · have hread : (c.read wall mono).2 =
        { c with checked := Ticks.ofSpan (mono - c.origin) }.resync wall
          (Ticks.ofSpan (mono - c.origin)) := if_pos hd
    -- no time has passed since the check that the first reading made
    have hagain : ∀ d : SystemClock, d.origin = c.origin →
        d.checked = Ticks.ofSpan (mono - c.origin) →
        d.read wall mono = (d.base + Ticks.ofSpan (mono - c.origin), d) := by
      intro d ho hc
      have hrecent : ¬ Ticks.ofSpan (mono - d.origin) - d.checked ≥ Ticks.perSecond := by
        rw [ho, hc, Int64.sub_self]
        decide
      rw [read_of_recent hrecent, ho]
    have ho := origin_resync { c with checked := Ticks.ofSpan (mono - c.origin) } wall
      (Ticks.ofSpan (mono - c.origin))
    have hc := checked_resync { c with checked := Ticks.ofSpan (mono - c.origin) } wall
      (Ticks.ofSpan (mono - c.origin))
    rw [hread, hagain _ ho hc, ← hread]
    rfl
  · rw [read_of_recent hd, read_of_recent hd]

end SystemClock

/-- A wall clock that adds one tick for every repeated reading. -/
structure IncrementalClock where
  /-- The last reading of the wall clock. -/
  last : Ticks := 0
  /-- How often that reading was repeated. -/
  repeated : Ticks := 0
  deriving DecidableEq, Repr

namespace IncrementalClock

/-- The larger sum that fits, where a sum overflows upwards. -/
def addSaturating (a b : Ticks) : Ticks :=
  Int64.ofInt (Min.min (Max.max (a.toInt + b.toInt) Int64.minValue.toInt) Int64.maxValue.toInt)

/-- The reading for a wall time, and the clock after it. -/
def advance (c : IncrementalClock) (wall : Ticks) : Ticks × IncrementalClock :=
  let c : IncrementalClock :=
    if wall = c.last then { c with repeated := c.repeated + 1 }
    else { last := wall, repeated := 0 }
  (addSaturating wall c.repeated, c)

/-- The reading for an instant of the wall clock. -/
def read (c : IncrementalClock) (wall : Instant) : Ticks × IncrementalClock :=
  c.advance (Ticks.ofInstant wall)

end IncrementalClock

end UuidForge
