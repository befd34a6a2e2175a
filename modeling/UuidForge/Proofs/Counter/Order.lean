import Mathlib.Data.Nat.Notation
import UuidForge.Counter
import UuidForge.Proofs.Time.Checked

/-!
# The order of counter values

Values are ordered by milliseconds, clock and sequence, in this order: their `rank` is one number.
The milliseconds of a value always come from a reading of some clock, which keeps all differences
far from the ends of the range.

* `CounterValue.rank_lt_iff`: the order of ranks is lexicographic.
* `CounterValue.raised`: a value that is incremented, with a carry into the clock.
* `CounterValue.after_eq`: **a reading within ten seconds raises the value before, every other one
  is adopted.**
* `CounterValue.rank_lt_of_after`: **the value after another has a larger rank**, unless the reading
  lies more than ten seconds back.
* `Counter.rank_lt_of_value?`: so does every step of a counter.
-/

namespace UuidForge

/-- The millisecond of a point of time. -/
def Ticks.millisecond (t : Ticks) : ℤ := t.toInt / 10000

/-- A millisecond is far from the ends of the range. -/
theorem Ticks.millisecond_bounds (t : Ticks) :
    -1000000000000000 < Ticks.millisecond t ∧ Ticks.millisecond t < 1000000000000000 := by
  have h1 := t.le_toInt
  have h2 := t.toInt_lt
  unfold Ticks.millisecond
  omega

namespace CounterValue

open Ticks (Fits)

variable {p v x : CounterValue} {s t : Ticks}

/-- The place of a value in the order of milliseconds, clock and sequence. -/
def rank (v : CounterValue) : ℤ :=
  (v.milliseconds.toInt * 4096 + v.clock.toNat) * 16384 + v.sequence.toNat

/-- The milliseconds of a value are those of a point of time. -/
def ReadAt (v : CounterValue) (t : Ticks) : Prop := v.milliseconds.toInt = Ticks.millisecond t

/-- **The order of ranks is lexicographic.** -/
theorem rank_lt_iff : p.rank < v.rank ↔
    p.milliseconds.toInt < v.milliseconds.toInt ∨ p.milliseconds.toInt = v.milliseconds.toInt ∧
      (p.clock.toNat < v.clock.toNat ∨ p.clock.toNat = v.clock.toNat ∧
        p.sequence.toNat < v.sequence.toNat) := by
  have h1 := p.clock.isLt
  have h2 := v.clock.isLt
  have h3 := p.sequence.isLt
  have h4 := v.sequence.isLt
  unfold rank
  omega

theorem sameOrLater_iff : p.SameOrLater v ↔
    v.milliseconds.toInt < p.milliseconds.toInt ∨ v.milliseconds.toInt = p.milliseconds.toInt ∧
      v.clock.toNat ≤ p.clock.toNat := by
  rw [SameOrLater, Int64.lt_iff_toInt_lt, ← Int64.toInt_inj, BitVec.le_def]

/-- Milliseconds of points of time are so close that their difference fits. -/
theorem fits_sub_of_readAt (hp : p.ReadAt s) (hv : v.ReadAt t) :
    Fits (p.milliseconds.toInt - v.milliseconds.toInt) := by
  have h1 := Ticks.millisecond_bounds s
  have h2 := Ticks.millisecond_bounds t
  unfold ReadAt at hp hv
  unfold Fits
  omega

/-- The test for a rollback is exact where the difference fits. -/
theorem rollback_iff (h : Fits (p.milliseconds.toInt - v.milliseconds.toInt)) :
    p.milliseconds - v.milliseconds > rollbackAllowance ↔
      p.milliseconds.toInt - v.milliseconds.toInt > 10000 := by
  have hallowance : rollbackAllowance.toInt = 10000 := by decide
  rw [gt_iff_lt, Int64.lt_iff_toInt_lt, Ticks.toInt_sub h, hallowance]

/-! ## Raised values -/

/-- The value that is incremented: by one in the sequence, or by one in the clock with a new
sequence. The last value of a millisecond is not. -/
def raised (p : CounterValue) (restart : BitVec 14) : Option CounterValue :=
  if p.sequence < 0x3fff then some { p with sequence := p.sequence + 1 }
  else if p.clock < 0xfff then some { p with clock := p.clock + 1, sequence := restart }
  else none

/-- **What raises a value**: it is the last one of its millisecond, or its sequence is incremented,
or its sequence is used up and its clock is incremented. -/
theorem raised_cases (p : CounterValue) (restart : BitVec 14) :
    (p.IsLast ∧ p.raised restart = none) ∨
      ∃ x, p.raised restart = some x ∧ x.milliseconds = p.milliseconds ∧
        ((x.clock = p.clock ∧ x.sequence.toNat = p.sequence.toNat + 1) ∨
          (p.sequence.toNat = 16383 ∧ x.clock.toNat = p.clock.toNat + 1 ∧
            x.sequence = restart)) := by
  unfold raised IsLast
  by_cases hs : p.sequence < 0x3fff
  · rw [if_pos hs]
    exact Or.inr ⟨_, rfl, rfl, Or.inl ⟨rfl, by bv_omega⟩⟩
  · rw [if_neg hs]
    by_cases hc : p.clock < 0xfff
    · rw [if_pos hc]
      exact Or.inr ⟨_, rfl, rfl, Or.inr ⟨by bv_omega, by bv_omega, rfl⟩⟩
    · rw [if_neg hc]
      exact Or.inl ⟨⟨by bv_omega, by bv_omega⟩, rfl⟩

theorem isLast_iff : p.IsLast ↔ p.sequence.toNat = 16383 ∧ p.clock.toNat = 4095 := by
  rw [IsLast, ← BitVec.toNat_inj, ← BitVec.toNat_inj]
  exact Iff.rfl

/-- Only the last value of a millisecond is not raised. -/
theorem raised_eq_none_iff {restart : BitVec 14} : p.raised restart = none ↔ p.IsLast := by
  rcases raised_cases p restart with ⟨hlast, hnone⟩ | ⟨x, hx, -, hparts⟩
  · exact iff_of_true hnone hlast
  · have hsequence := x.sequence.isLt
    have hclock := x.clock.isLt
    rw [hx, isLast_iff]
    refine iff_of_false nofun fun hlast => ?_
    rcases hparts with ⟨-, hs⟩ | ⟨-, hc, -⟩
    · omega
    · omega

/-- A value is raised, or gives way to the reading. -/
theorem after_def (p v : CounterValue) : p.after v =
    if ¬ p.SameOrLater v then some v
    else if p.milliseconds - v.milliseconds > rollbackAllowance then some v
    else p.raised v.sequence := rfl

/-- **A reading that is not later and at most ten seconds back raises the value before**; every
other one is adopted. -/
theorem after_eq (h : Fits (p.milliseconds.toInt - v.milliseconds.toInt)) :
    p.after v =
      if p.SameOrLater v ∧ p.milliseconds.toInt - v.milliseconds.toInt ≤ 10000 then
        p.raised v.sequence
      else some v := by
  have hback := rollback_iff h
  rw [after_def]
  by_cases hl : p.SameOrLater v
  · rw [if_neg (not_not_intro hl)]
    by_cases hr : p.milliseconds - v.milliseconds > rollbackAllowance
    · rw [if_pos hr, if_neg fun hboth => Int.not_lt.2 hboth.2 (hback.1 hr)]
    · rw [if_neg hr, if_pos ⟨hl, Int.not_lt.1 (mt hback.2 hr)⟩]
  · rw [if_pos hl, if_neg fun hboth => hl hboth.1]

/-- A raised value has a larger rank, in the same millisecond. -/
theorem rank_lt_of_raised {restart : BitVec 14} (h : p.raised restart = some x) :
    p.rank < x.rank ∧ x.milliseconds = p.milliseconds := by
  rcases raised_cases p restart with ⟨-, hnone⟩ | ⟨y, hy, hms, hparts⟩
  · rw [hnone] at h
    cases h
  · rw [hy] at h
    cases h
    refine ⟨rank_lt_iff.2 (Or.inr ⟨congrArg Int64.toInt hms.symm, ?_⟩), hms⟩
    rcases hparts with ⟨hc, hs⟩ | ⟨-, hc, -⟩
    · exact Or.inr ⟨congrArg BitVec.toNat hc.symm, by omega⟩
    · exact Or.inl (by omega)

/-- **The value after another has a larger rank**, unless the reading lies more than ten seconds
back. Its milliseconds are those of the value before or those of the reading. -/
theorem rank_lt_of_after (hp : p.ReadAt s) (hv : v.ReadAt t)
    (h : Ticks.millisecond s ≤ Ticks.millisecond t + 10000) (hx : p.after v = some x) :
    p.rank < x.rank ∧ (x.ReadAt s ∨ x.ReadAt t) := by
  rw [after_eq (fits_sub_of_readAt hp hv)] at hx
  split at hx
  · obtain ⟨hlt, hms⟩ := rank_lt_of_raised hx
    exact ⟨hlt, Or.inl ((congrArg Int64.toInt hms).trans hp)⟩
  · -- a reading so far back is ruled out, so this one is later
    rename_i hadopted
    cases hx
    rw [sameOrLater_iff] at hadopted
    unfold ReadAt at hp
    have hback : p.milliseconds.toInt - v.milliseconds.toInt ≤ 10000 := by
      unfold ReadAt at hv
      omega
    exact ⟨rank_lt_iff.2 (by omega), Or.inr hv⟩

/-- Milliseconds are kept or taken from the reading. -/
theorem milliseconds_of_after (h : p.after v = some x) :
    x.milliseconds = p.milliseconds ∨ x.milliseconds = v.milliseconds := by
  rw [after_def] at h
  split at h
  · cases h
    exact Or.inr rfl
  · split at h
    · cases h
      exact Or.inr rfl
    · exact Or.inl (rank_lt_of_raised h).2

end CounterValue

theorem Candidate.readAt_adopted (t : Ticks) (seed : BitVec 16) :
    (Candidate.ofTicks t seed).adopted.ReadAt t := by
  have h1 := t.le_toInt
  have h2 := t.toInt_lt
  exact Int64.toInt_ofInt_of_le (by omega) (by omega)

namespace Counter

variable {k : Counter} {v : CounterValue}

/-- **A step of a counter ascends**, unless the reading lies more than ten seconds back. -/
theorem rank_lt_of_value? {p : CounterValue} {s t : Ticks} {seed : BitVec 16}
    (hk : k.last = some p) (hp : p.ReadAt s)
    (h : Ticks.millisecond s ≤ Ticks.millisecond t + 10000)
    (hv : k.value? (Candidate.ofTicks t seed) = some v) :
    p.rank < v.rank ∧ (v.ReadAt s ∨ v.ReadAt t) := by
  rw [value?, hk] at hv
  exact CounterValue.rank_lt_of_after hp (Candidate.readAt_adopted t seed) h hv

theorem readAt_of_value? {t : Ticks} {seed : BitVec 16} (hk : k.last = none)
    (hv : k.value? (Candidate.ofTicks t seed) = some v) : v.ReadAt t := by
  rw [value?, hk] at hv
  cases hv
  exact Candidate.readAt_adopted t seed

end Counter

end UuidForge
