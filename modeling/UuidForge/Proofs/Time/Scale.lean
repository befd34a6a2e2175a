import Mathlib.Data.Nat.Notation
import UuidForge.Time.Scale

/-!
# Counts on a time scale

* `TimeScale.count?_eq_some_iff`: the count of a point of time, as an equation of numbers.
* `TimeScale.count?_injective`: where every tick counts, a count tells the point of time.
* `TimeScale.point_lt_point_iff`: points of time are in the order of their counts.
* `TimeScale.count?_point`: **the first point of time with a count has that count**, on a scale
  whose ends are ticks.
-/

namespace UuidForge.TimeScale

variable {s : TimeScale} {t t' : Ticks} {n : ℕ}

/-- **The count of a point of time.** -/
theorem count?_eq_some_iff :
    s.count? t = some n ↔ (t.toInt - s.epoch) / s.unit = n ∧ n < s.size := by
  unfold count?
  dsimp only
  constructor
  · intro h
    split at h
    · cases h
      omega
    · cases h
  · rintro ⟨hn, hlt⟩
    rw [hn, if_pos ⟨Int.natCast_nonneg n, Int.ofNat_lt.2 hlt⟩]
    rfl

theorem count?_injective (h : s.unit = 1) (ht : s.count? t = some n)
    (ht' : s.count? t' = some n) : t = t' := by
  have h1 := (count?_eq_some_iff.1 ht).1
  have h2 := (count?_eq_some_iff.1 ht').1
  rw [h, Int.natCast_one, Int.ediv_one] at h1 h2
  exact Int64.toInt_inj.1 (by omega)

/-- Every point of time on the scale is a tick. -/
structure Sound (s : TimeScale) : Prop where
  unit : 0 < s.unit
  first : Int64.minValue.toInt ≤ s.first
  last : s.last ≤ Int64.maxValue.toInt

theorem gregorian_sound : gregorian.Sound := by
  constructor <;> decide

theorem unixMilliseconds_sound : unixMilliseconds.Sound := by
  constructor <;> decide

theorem toInt_point (hs : s.Sound) (hn : n < s.size) :
    (s.point n).toInt = s.epoch + n * s.unit := by
  have hunit := hs.unit
  have hfirst := hs.first
  have hlast := hs.last
  rw [Int64.toInt_minValue, first] at hfirst
  rw [Int64.toInt_maxValue, last] at hlast
  -- the unit after the last one begins where the scale ends
  have hle : ((n + 1 : ℕ) : Int) * s.unit ≤ s.size * s.unit := by
    exact_mod_cast Nat.mul_le_mul_right s.unit hn
  rw [Int.natCast_succ, Int.add_mul, Int.one_mul] at hle
  have hnonneg : 0 ≤ (n : Int) * s.unit := Int.mul_nonneg (by omega) (by omega)
  exact Int64.toInt_ofInt_of_le (by omega) (by omega)

/-- **The first point of time with a count has that count.** -/
theorem count?_point (hs : s.Sound) (hn : n < s.size) : s.count? (s.point n) = some n := by
  have hunit := hs.unit
  have hsub : s.epoch + n * s.unit - s.epoch = n * s.unit := by omega
  refine count?_eq_some_iff.2 ⟨?_, hn⟩
  rw [toInt_point hs hn, hsub]
  exact Int.mul_ediv_cancel _ (by omega)

/-- Points of time are in the order of their counts. -/
theorem point_lt_point_iff {m : ℕ} (hs : s.Sound) (hm : m < s.size) (hn : n < s.size) :
    s.point m < s.point n ↔ m < n := by
  have hunit : (0 : Int) < s.unit := Int.ofNat_lt.2 hs.unit
  rw [Int64.lt_iff_toInt_lt, toInt_point hs hm, toInt_point hs hn, Int.add_lt_add_iff_left,
    Int.mul_lt_mul_right hunit, Int.ofNat_lt]

theorem point_injective {m : ℕ} (hs : s.Sound) (hm : m < s.size) (hn : n < s.size)
    (h : s.point m = s.point n) : m = n := by
  have hc := count?_point hs hm
  rw [h, count?_point hs hn] at hc
  exact (Option.some.inj hc).symm

end UuidForge.TimeScale
