import UuidForge.Proofs.Custom.Checked
import UuidForge.Proofs.UnixTime.Checked

/-!
# Where ticks overflow

Generation with checked arithmetic succeeds exactly where nothing overflows. Four operations are at
risk, all of them near the ends of the range: the sum of anchor and elapsed time in the system
clock, its drift check, the ticks of a version 7 value, and the difference to the epoch of a custom
layout.

* `overflows_exactly`: **what can overflow, and when.** Near 1970 the clock does not.
* `overflows_beyond`: each of the four does at an end of the range, and the last one makes a
  generator accept a time out of range.
-/

namespace UuidForge

open Ticks (Fits)

/-- **What can overflow, and when.** Let the clock of a host and the counter of a generator of
version 7 be in use.

A reading of the clock succeeds without an overflow exactly if its exact results fit, which they do
while all times lie near 1970. The next UUID of version 7 does exactly if the reading does and the
ticks of its value fit, that is unless the value lies in the first millisecond of the range. The
value is what the counter makes of one of the readings, and the UUID is refused exactly if it is off
the scale, overflow or not. The next UUID with a custom layout
does exactly if the reading does and the time since the epoch fits; the example layout refuses a
time exactly if it is out of range, unless the difference wraps into the range. Clock and counter
are still in use afterwards. -/
theorem overflows_exactly (h : Host) (g : UnixTime) (l : Custom) (hg : g.InUse h) :
    (Succeeds (h.clock.read? h.wall h.mono) (h.clock.ReadFits h.wall h.mono)
        (h.clock.read h.wall h.mono) ∧
      (h.clock.UsedAt SystemClock.Near → SystemClock.Near h.wall h.mono →
        h.clock.ReadFits h.wall h.mono)) ∧
    (Succeeds (g.next? h) ((g.patience ≠ 0 → g.source.ReadFits h) ∧
        ∀ v, g.value? h = some v → Fits (v.milliseconds.toInt * 10000)) (g.next h) ∧
      (g.next h).1.2.InUse (g.next h).2 ∧
      ∀ v, g.value? h = some v →
        (∃ t ∈ g.readings h, (g.counter.counter h).value?
          (Candidate.ofTicks t (UnixTime.seedOf (Host.drawUuid h).1)) = some v) ∧
        (Fits (v.milliseconds.toInt * 10000) ↔ v.milliseconds.toInt ≠ -922337203685478) ∧
        ∀ e, (g.next h).1.1 = .error e ↔
          ¬ (0 ≤ v.milliseconds.toInt ∧ v.milliseconds.toInt < 281474976710656) ∧
            e = .outOfRange
              (.timestamp TimeScale.unixMilliseconds.first TimeScale.unixMilliseconds.last)) ∧
    Succeeds (l.next? h) (l.source.ReadFits h ∧ Fits (l.sinceEpoch h)) (l.next h) ∧
      (l.next h).2.clock.InUse ∧
      (l.fill.IsExample → ((l.next h).1.1 = .error ExampleLayout.outOfRange ↔
        ¬ (0 ≤ l.sinceEpoch h ∧ l.sinceEpoch h < ExampleLayout.bound) ∧
          ¬ l.sinceEpoch h + 18446744073709551616 < ExampleLayout.bound)) := by
  refine ⟨⟨?_, ?_⟩, ⟨UnixTime.succeeds_next? hg, UnixTime.inUse_next hg, fun v hv => ⟨?_, ?_, ?_⟩⟩,
    ?_⟩
  · exact SystemClock.succeeds_read? hg.clock h.wall h.mono
  · exact fun hused hnear => SystemClock.readFits_of_near hused hnear
  · exact UnixTime.value?_spec hv
  · obtain ⟨t, ht⟩ := hg.readAt_value hv
    exact CounterValue.fits_ticks_iff ht
  · exact fun e => UnixTime.next_eq_error_iff hg hv
  · exact ⟨Custom.succeeds_next? hg.clock, Custom.inUse_next hg.clock, Custom.next_refuses_iff⟩

/-- A host whose wall clock is far before the range of ticks. -/
def Host.ancient : Host := .start (.ofScript #[]) (-922337203687000000000) none 0

/-- A generator of version 7 with a counter of its own. -/
def UnixTime.lone : UnixTime where
  source := .ofReadings fun _ => 0
  counter := .own {}

/-- A generator with the example layout and the last point of time as its epoch. -/
def Custom.distant : Custom where
  epoch := Int64.maxValue
  nodes := some (.fixed 0)
  fill := .newExample

/-- On the ancient host the clock can be read, while a custom layout accepts a time out of range. -/
theorem overflows_exactly_ancient : UnixTime.lone.InUse Host.ancient ∧
    Host.ancient.clock.read? Host.ancient.wall Host.ancient.mono =
      some (Host.ancient.clock.read Host.ancient.wall Host.ancient.mono) ∧
    Custom.distant.next? Host.ancient = none ∧
    (Custom.distant.next Host.ancient).1.1 ≠ .error ExampleLayout.outOfRange := by
  have huse : UnixTime.lone.InUse Host.ancient := ⟨.start trivial, .new⟩
  have hfits : Host.ancient.clock.ReadFits Host.ancient.wall Host.ancient.mono := by decide
  have hwraps : ¬ Fits (Custom.distant.sinceEpoch Host.ancient) := by decide
  obtain ⟨⟨hread, -⟩, -, hnext, -, hrefuses⟩ :=
    overflows_exactly Host.ancient UnixTime.lone Custom.distant huse
  refine ⟨huse, hread.eq_some hfits, hnext.eq_none fun h => hwraps h.2, ?_⟩
  rw [ne_eq, hrefuses trivial]
  decide

/-- **Where ticks overflow.** A clock that was started at the last tick stands at the first one a
tick later. A drift of half the range has no distance from zero, so the clock is not moved. The
first millisecond has no ticks. And a generator lays out a UUID for a time that lies out of
range. -/
theorem overflows_beyond :
    ((SystemClock.start 922337203685477580700 0).read? 922337203685477580700 100 = none ∧
      ((SystemClock.start 922337203685477580700 0).read 922337203685477580700 100).1 =
        Int64.minValue) ∧
    ((SystemClock.start (-999999900) 0).read? (-922337203687000000000) 1000000000 = none ∧
      ((SystemClock.start (-999999900) 0).read (-922337203687000000000) 1000000000).1 = 1) ∧
    (Candidate.ofTicks (-9223372036854775807) 0).adopted.uuid? Uuid.nil = none ∧
    (Custom.distant.next? Host.ancient = none ∧
      Custom.distant.sinceEpoch Host.ancient = -18446744073709551614 ∧
      (Custom.distant.next Host.ancient).1.1 = .ok ⟨0x00000000000080008000000000000000⟩) := by
  decide

end UuidForge
