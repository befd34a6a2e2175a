import UuidForge.Generator.UnixTime
import UuidForge.Proofs.Counter.Order
import UuidForge.Proofs.Time.Scale
import UuidForge.Proofs.Uuid.Order
import UuidForge.Proofs.Uuid.Stamp

/-!
# Counter values in UUIDs of version 7

A UUID of version 7 holds the milliseconds, the clock and the sequence of its counter value in this
order from the top; the bits of version and variant between them are always the same.

* `CounterValue.uuid_eq_ok_iff`: there is a UUID exactly if the milliseconds have a count.
* `CounterValue.read_layOut`: what the slices of the UUID hold.
* `CounterValue.uuid_lt_uuid`: **the larger value has the larger UUID**, whatever the other bits
  are.
-/

namespace UuidForge

namespace CounterValue

variable {v v' : CounterValue} {u u' x x' : Uuid} {t t' : Ticks}

/-- The UUID with a count of milliseconds and the other parts of a value in their slices. -/
def layOut (v : CounterValue) (u : Uuid) (n : ℕ) : Uuid :=
  let u := Slice.timeHi.write (Slice.leading.write u (BitVec.ofNat 48 n)) v.clock
  (Slice.clockSequence.write u v.sequence).stamp .v7 .rfc4122

theorem uuid_eq_ok_iff : v.uuid u = .ok x ↔
    ∃ n, TimeScale.unixMilliseconds.count? (v.milliseconds * Ticks.perMillisecond) = some n ∧
      x = v.layOut u n := by
  unfold uuid Layout.setTimestamp TimeField.write
  have ht : (Layout.ofVersion .v7).time = some ⟨.unixMilliseconds, 0, [Slice.leading]⟩ := rfl
  simp only [ht]
  cases TimeScale.unixMilliseconds.count? (v.milliseconds * Ticks.perMillisecond) with
  | none => simp [bind, Except.bind]
  | some n =>
    simp [bind, Except.bind, pure, Except.pure, layOut, scatter, totalWidth, eq_comm]

/-- **What the slices of a UUID of version 7 hold.** -/
theorem read_layOut (v : CounterValue) (u : Uuid) {n : ℕ} (hn : n < 281474976710656) :
    (Slice.leading.read (v.layOut u n)).toNat = n ∧
      Slice.version.read (v.layOut u n) = Version.v7.number ∧
      Slice.timeHi.read (v.layOut u n) = v.clock ∧
      Variant.rfc4122.slice.read (v.layOut u n) = Variant.rfc4122.prefixBits ∧
      Slice.clockSequence.read (v.layOut u n) = v.sequence := by
  unfold layOut
  refine ⟨?_, Uuid.read_version_stamp _ _ _, ?_, Uuid.read_variant_stamp _ _ _, ?_⟩
  · rw [Uuid.read_stamp_of_apart _ _ _ (by decide) (by decide),
      Slice.read_write_of_apart (by decide), Slice.read_write_of_apart (by decide),
      Slice.read_write (by decide), BitVec.toNat_ofNat]
    exact Nat.mod_eq_of_lt hn
  · rw [Uuid.read_stamp_of_apart _ _ _ (by decide) (by decide),
      Slice.read_write_of_apart (by decide), Slice.read_write (by decide)]
  · rw [Uuid.read_stamp_of_apart _ _ _ (by decide) (by decide), Slice.read_write (by decide)]

/-- The count in a UUID of version 7 is that of the reading. A product that overflows has no count,
since it lies far above the scale. -/
theorem count_of_readAt (hv : v.ReadAt t) {n : ℕ}
    (hn : TimeScale.unixMilliseconds.count? (v.milliseconds * Ticks.perMillisecond) = some n) :
    v.milliseconds.toInt = n ∧ n < 281474976710656 := by
  obtain ⟨he, hlt⟩ := TimeScale.count?_eq_some_iff.1 hn
  have hlt : n < 281474976710656 := hlt
  refine ⟨?_, hlt⟩
  have h1 := t.le_toInt
  have h2 := t.toInt_lt
  have hp : Ticks.perMillisecond.toInt = 10000 := by decide
  unfold ReadAt Ticks.millisecond at hv
  rw [Int64.toInt_mul, hp] at he
  simp only [TimeScale.unixMilliseconds, Int.sub_zero] at he
  push_cast at he
  by_cases hfit : -9223372036854775808 ≤ v.milliseconds.toInt * 10000
  · rw [Int.bmod_eq_of_le (by omega) (by omega)] at he
    omega
  · -- the product wraps around to the upper end of the range
    rw [← Int.add_bmod_right, Int.bmod_eq_of_le (by omega) (by omega)] at he
    omega

/-- **The larger value has the larger UUID.** -/
theorem uuid_lt_uuid (hv : v.ReadAt t) (hv' : v'.ReadAt t') (h : v.rank < v'.rank)
    (hx : v.uuid u = .ok x) (hx' : v'.uuid u' = .ok x') : x < x' := by
  obtain ⟨n, hn, rfl⟩ := uuid_eq_ok_iff.1 hx
  obtain ⟨n', hn', rfl⟩ := uuid_eq_ok_iff.1 hx'
  obtain ⟨hm, hlt⟩ := count_of_readAt hv hn
  obtain ⟨hm', hlt'⟩ := count_of_readAt hv' hn'
  obtain ⟨h1, h2, h3, h4, h5⟩ := v.read_layOut u hlt
  obtain ⟨h1', h2', h3', h4', h5'⟩ := v'.read_layOut u' hlt'
  -- the first part that differs decides
  rcases rank_lt_iff.1 h with hms | ⟨hms, hc | ⟨hc, hs⟩⟩
  · refine Uuid.lt_of_read_lt [] Slice.leading 80 (by decide) (by simp) ?_
    omega
  · refine Uuid.lt_of_read_lt [Slice.leading, Slice.version] Slice.timeHi 64 (by decide) ?_ ?_
    · simp only [List.forall_mem_cons]
      exact ⟨BitVec.eq_of_toNat_eq (by omega), h2.trans h2'.symm, by simp⟩
    · rwa [h3, h3']
  · refine Uuid.lt_of_read_lt [Slice.leading, Slice.version, Slice.timeHi, Variant.rfc4122.slice]
      Slice.clockSequence 48 (by decide) ?_ ?_
    · simp only [List.forall_mem_cons]
      refine ⟨BitVec.eq_of_toNat_eq (by omega), h2.trans h2'.symm, ?_, h4.trans h4'.symm, by simp⟩
      rw [h3, h3', BitVec.eq_of_toNat_eq hc]
    · rwa [h5, h5']

end CounterValue

end UuidForge
