import UuidForge.Time.Ticks

/-!
# Dates and times as text

Points of time are written in the form of RFC 3339, in UTC: `1970-01-01T00:00:00.001Z`. Years
outside 0 to 9999 carry a sign, and the fraction has 0, 3, 6 or 9 digits, as few as are exact.
-/

namespace UuidForge

/-- A date of the proleptic Gregorian calendar. -/
structure Date where
  year : Int
  month : Nat
  day : Nat
  deriving DecidableEq, Repr

namespace Date

/-- The date that lies `n` days after 1970-01-01. Years are counted from March, in eras of 400
years or 146097 days; month `k` after March starts on day `(153 * k + 2) / 5` of such a year. -/
def ofDay (n : Int) : Date :=
  let shifted := n + 719468
  let era := shifted / 146097
  let dayOfEra := (shifted % 146097).toNat
  let yearOfEra := (dayOfEra - dayOfEra / 1460 + dayOfEra / 36524 - dayOfEra / 146096) / 365
  let dayOfYear := dayOfEra - (365 * yearOfEra + yearOfEra / 4 - yearOfEra / 100)
  let k := (5 * dayOfYear + 2) / 153
  let month := if k < 10 then k + 3 else k - 9
  { year := era * 400 + yearOfEra + if month ≤ 2 then 1 else 0
    month
    day := dayOfYear - (153 * k + 2) / 5 + 1 }

end Date

namespace Calendar

/-- A number with leading zeros up to `width` digits. -/
def padded (width n : Nat) : String :=
  let digits := toString n
  "".pushn '0' (width - digits.length) ++ digits

/-- A year: four digits, or a sign and at least four digits. -/
def year (y : Int) : String :=
  if 0 ≤ y ∧ y ≤ 9999 then padded 4 y.toNat
  else (if y < 0 then "-" else "+") ++ padded 4 y.natAbs

/-- The fraction of a second: no digits, or a point and 3, 6 or 9 of them. -/
def fraction (nanoseconds : Nat) : String :=
  if nanoseconds = 0 then ""
  else if nanoseconds % 1000000 = 0 then "." ++ padded 3 (nanoseconds / 1000000)
  else if nanoseconds % 1000 = 0 then "." ++ padded 6 (nanoseconds / 1000)
  else "." ++ padded 9 nanoseconds

/-- A point of time, in ticks since 1970, in the form of RFC 3339. -/
def rfc3339 (ticks : Int) : String :=
  let seconds := ticks / 10000000
  let date := Date.ofDay (seconds / 86400)
  let second := (seconds % 86400).toNat
  year date.year ++ "-" ++ padded 2 date.month ++ "-" ++ padded 2 date.day ++ "T" ++
    padded 2 (second / 3600) ++ ":" ++ padded 2 (second / 60 % 60) ++ ":" ++
    padded 2 (second % 60) ++ fraction ((ticks % 10000000).toNat * 100) ++ "Z"

end Calendar

/-- A point of time in the form of RFC 3339. -/
def Ticks.text (t : Ticks) : String := Calendar.rfc3339 t.toInt

end UuidForge
