/-!
# Ticks

Time is counted in **ticks** of 100 nanoseconds since 1970-01-01T00:00:00Z, in a signed word of 64
bits; its arithmetic wraps. The outside world speaks of instants and spans in nanoseconds, which
are unbounded numbers: conversion to ticks drops the part below a tick and stops at the ends of the
range.
-/

namespace UuidForge

/-- A point of time in nanoseconds since 1970-01-01T00:00:00Z. -/
abbrev Instant := Int

/-- A span of time in nanoseconds. -/
abbrev Span := Nat

/-- A point or a span of time in ticks of 100 nanoseconds. -/
abbrev Ticks := Int64

namespace Ticks

/-- Ticks per millisecond. -/
def perMillisecond : Ticks := 10000

/-- Ticks per second. -/
def perSecond : Ticks := 10000000

/-- 1582-10-15T00:00:00Z, the start of the Gregorian calendar. -/
def gregorianEpoch : Ticks := -122192928000000000

/-- 1970-01-01T00:00:00Z. -/
def unixEpoch : Ticks := 0

/-- 2020-01-01T00:00:00Z. -/
def epoch2020 : Ticks := 15778368000000000

/-- The earliest point of time, which stands for "never". -/
def never : Ticks := Int64.minValue

/-- The whole ticks of a span, at most the largest one. -/
def ofSpan (s : Span) : Ticks := Int64.ofNat (Nat.min (s / 100) 0x7fffffffffffffff)

/-- The ticks of an instant: the part below a tick is dropped towards 1970, and an instant out of
range becomes the largest tick count or its negative. -/
def ofInstant (t : Instant) : Ticks :=
  if 0 ≤ t then ofSpan t.toNat else -ofSpan (-t).toNat

/-- The instant of a tick count, at most `2 ^ 64 - 1` nanoseconds away from 1970. -/
def toInstant (t : Ticks) : Instant :=
  let distance : Nat := Nat.min (t.toInt.natAbs * 100) 0xffffffffffffffff
  if 0 ≤ t.toInt then distance else -distance

end Ticks

end UuidForge
