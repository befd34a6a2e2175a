import UuidForge.Proofs.Layout.Partition
import UuidForge.Proofs.Time.Checked

/-!
# Ticks and instants

An instant comes back from a tick count through a number of nanoseconds that is kept in 64 bits
without a sign. So instants reach half a millennium away from 1970, up to the year 2554, while ticks
and the timestamps of UUIDs reach much farther.

* `Ticks.toInt_ofInstant_toInstant`: **a tick count that is taken to an instant and back stops at
  the last one that instants reach.**
* `Layout.timestamp_bounds`: the timestamp of a UUID lies after the first one that instants reach.
* `Ticks.instants_round_trip`: **tick counts survive exactly within this reach.**
-/

namespace UuidForge

namespace Ticks

variable {t : Ticks}

/-- The last tick count within `2 ^ 64 - 1` nanoseconds from 1970: 2554-07-21T23:34:33.7095516Z. -/
def reach : ℤ := 184467440737095516

/-- **There and back.** A tick count that is taken to an instant and back stops at the reach of
instants. -/
theorem toInt_ofInstant_toInstant (t : Ticks) :
    (ofInstant t.toInstant).toInt = max (-reach) (min t.toInt reach) := by
  have hmin : ∀ m n : ℕ, Nat.min m n = min m n := fun _ _ => rfl
  -- the nanoseconds that are kept, in whole ticks
  have hspan : ∀ n : ℕ,
      (ofSpan (Nat.min (n * 100) 18446744073709551615)).toInt = min (n : ℤ) reach := by
    intro n
    rw [toInt_ofSpan, hmin, hmin]
    unfold reach
    omega
  have hneg : ∀ n : ℕ, (-ofSpan (Nat.min (n * 100) 18446744073709551615)).toInt =
      -min (n : ℤ) reach := by
    intro n
    rw [toInt_neg (ofSpan_bounds _).2, hspan]
  unfold toInstant ofInstant
  dsimp only
  by_cases ht : 0 ≤ t.toInt
  · have hnat : (t.toInt.natAbs : ℤ) = t.toInt := Int.natAbs_of_nonneg ht
    rw [if_pos ht, if_pos (Int.natCast_nonneg _), Int.toNat_natCast, hspan, hnat]
    unfold reach
    omega
  · have hnat : (t.toInt.natAbs : ℤ) = -t.toInt := by omega
    have hpos : ¬ 0 ≤ -((Nat.min (t.toInt.natAbs * 100) 18446744073709551615 : ℕ) : ℤ) := by
      rw [hmin]
      omega
    rw [if_neg ht, if_neg hpos, Int.neg_neg, Int.toNat_natCast, hneg, hnat]
    unfold reach
    omega

theorem ofInstant_toInstant_iff :
    ofInstant t.toInstant = t ↔ -reach ≤ t.toInt ∧ t.toInt ≤ reach := by
  rw [← Int64.toInt_inj, toInt_ofInstant_toInstant]
  unfold reach
  omega

end Ticks

namespace Layout

/-- **The timestamp of a UUID** lies after the first one that instants reach. -/
theorem timestamp_bounds {v : Version} {u : Uuid} {t : Ticks}
    (h : (ofVersion v).timestamp u = .ok t) : -Ticks.reach ≤ t.toInt := by
  have hepoch : ∀ f ∈ (ofVersion v).time, -122192928000000000 ≤ f.scale.epoch := by
    unfold ofVersion
    split
    all_goals
      rintro f ⟨⟩
      try decide
  unfold timestamp at h
  cases hf : (ofVersion v).time with
  | none =>
    rw [hf] at h
    cases h
  | some f =>
    rw [hf] at h
    cases h
    have hsound := (sound_ofVersion v).time f hf
    have hlow := hepoch f hf
    have hpoint := TimeScale.toInt_point hsound.scale (TimeField.count_lt hsound u)
    unfold TimeField.read
    rw [hpoint]
    unfold Ticks.reach
    have hnonneg : 0 ≤ ((gather f.slices u <<< f.dropped : ℕ) : ℤ) * f.scale.unit :=
      Int.mul_nonneg (Int.natCast_nonneg _) (Int.natCast_nonneg _)
    omega

end Layout

namespace Ticks

/-- **A tick count survives the way to an instant and back exactly within the reach of instants**,
and stops at its ends otherwise. The timestamp of a UUID of any version survives exactly up to its
last end. -/
theorem instants_round_trip (t : Ticks) :
    (ofInstant t.toInstant = t ↔ -reach ≤ t.toInt ∧ t.toInt ≤ reach) ∧
      (t.toInt < -reach → (ofInstant t.toInstant).toInt = -reach) ∧
      (reach < t.toInt → (ofInstant t.toInstant).toInt = reach) ∧
      ∀ (v : Version) (u : Uuid), (Layout.ofVersion v).timestamp u = .ok t →
        (ofInstant t.toInstant = t ↔ t.toInt ≤ reach) := by
  have hback := toInt_ofInstant_toInstant t
  have hreach : 0 ≤ reach := by decide
  refine ⟨ofInstant_toInstant_iff, fun ht => ?_, fun ht => ?_, fun v u hu => ?_⟩
  · omega
  · omega
  · have hlow := Layout.timestamp_bounds hu
    rw [ofInstant_toInstant_iff]
    exact and_iff_right hlow

/-- The timestamp of a UUID of version 1 that was made at 1970-01-01T00:00:00Z survives. -/
theorem instants_round_trip_epoch :
    (Layout.ofVersion .v1).timestamp ⟨0x138140001dd211b28000000000000001⟩ = .ok 0 ∧
      ofInstant (toInstant 0) = 0 := by
  have htime : (Layout.ofVersion .v1).timestamp ⟨0x138140001dd211b28000000000000001⟩ = .ok 0 := by
    decide
  obtain ⟨-, -, -, hsurvives⟩ := instants_round_trip 0
  exact ⟨htime, (hsurvives .v1 _ htime).2 (by decide)⟩

/-- **The last timestamp of version 6**, in the year 5236, comes back as one of the year 2554. -/
theorem instants_lose_last : ∃ u t, (Layout.ofVersion .v6).timestamp u = .ok t ∧
    t.toInt = 1030728576606846975 ∧ (ofInstant t.toInstant).toInt = 184467440737095516 := by
  refine ⟨⟨0xffffffffffff6fffbfffffffffffffff⟩, 1030728576606846975, ?_, ?_, ?_⟩
  · decide
  · decide
  · decide

end Ticks

end UuidForge
