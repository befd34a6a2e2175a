import Mathlib.Data.Nat.Init
import UuidForge.Proofs.Time.Reading

/-!
# How the system clock follows the wall clock

Between drift checks the system clock runs on the monotonic clock alone. A drift check compares it
with the wall clock, a second or more after the check before, and sets it anew if the two are a
second or more apart.

* `SystemClock.check_cases`: what a drift check does, if one is due.
* `SystemClock.lastCheck`: when the last check was, told by the monotonic clock alone.
* `SystemClock.shown_eq`: a clock shows its anchor and the elapsed time.
* `SystemClock.tracks_wall`: **a reading is that of the wall clock where the clock was set anew, and
  runs on by the elapsed time everywhere else; after a drift check it is less than a second off.**
-/

namespace UuidForge

namespace SystemClock

open Ticks (Fits)

/-! ## Drift checks -/

section Check

variable {c : SystemClock} {wall : Instant} {elapsed : Ticks}

/-- **What a drift check does**: nothing before a second has passed since the last one; else it is
noted, and moves the anchor if the wall clock is a second or more away. -/
theorem check_cases (hc : c.InUse) (helapsed : 0 ≤ elapsed.toInt)
    (hsum : Fits (c.base.toInt + elapsed.toInt))
    (hresync : 10000000 ≤ elapsed.toInt - c.checked.toInt → c.ResyncFits wall elapsed) :
    (elapsed.toInt - c.checked.toInt < 10000000 ∧ c.check wall elapsed = c) ∨
      (10000000 ≤ elapsed.toInt - c.checked.toInt ∧ (c.check wall elapsed).checked = elapsed ∧
        (((c.drift wall elapsed).natAbs < 10000000 ∧ (c.check wall elapsed).base = c.base) ∨
          (10000000 ≤ (c.drift wall elapsed).natAbs ∧
            (c.check wall elapsed).base.toInt =
              (Ticks.ofInstant wall).toInt - elapsed.toInt))) := by
  obtain ⟨-, hdue⟩ := check_due_iff hc helapsed
  unfold check
  by_cases hd : 10000000 ≤ elapsed.toInt - c.checked.toInt
  · obtain ⟨hdrift, hbase⟩ := hresync hd
    have hmoves := resync_due_iff hsum hdrift
    rw [if_pos (hdue.2 hd), checked_resync]
    refine Or.inr ⟨hd, rfl, ?_⟩
    unfold resync
    dsimp only
    by_cases hfar : 10000000 ≤ (c.drift wall elapsed).natAbs
    · rw [if_pos (hmoves.2 hfar)]
      exact Or.inr ⟨hfar, Ticks.toInt_sub (hbase hfar)⟩
    · rw [if_neg (mt hmoves.1 hfar)]
      exact Or.inl ⟨Nat.not_le.1 hfar, rfl⟩
  · rw [if_neg (mt hdue.1 hd)]
    exact Or.inl ⟨Int.not_le.1 hd, rfl⟩

end Check

/-! ## Runs -/

/-- A clock that was started at time 0 and read at each of the next `n` times. A time is one of the
wall clock and one of the monotonic clock. -/
def run (ts : ℕ → Instant × Span) : ℕ → SystemClock
  | 0 => start (ts 0).1 (ts 0).2
  | n + 1 => ((run ts n).read (ts (n + 1)).1 (ts (n + 1)).2).2

/-- The ticks of the wall clock at time `n`. -/
def wallAt (ts : ℕ → Instant × Span) (n : ℕ) : ℤ := (Ticks.ofInstant (ts n).1).toInt

/-- The ticks of the monotonic clock from the start to time `n`. -/
def elapsedAt (ts : ℕ → Instant × Span) (n : ℕ) : ℤ := (Ticks.ofSpan ((ts n).2 - (ts 0).2)).toInt

/-- What the clock shows at time `n`; at the start this is the wall clock. -/
def shownAt (ts : ℕ → Instant × Span) : ℕ → ℤ
  | 0 => wallAt ts 0
  | n + 1 => ((run ts n).read (ts (n + 1)).1 (ts (n + 1)).2).1.toInt

/-- **When the last drift check was** after `n` readings. The start counts as one, and every reading
makes one that comes a second or more after the check before. -/
def lastCheck (ts : ℕ → Instant × Span) : ℕ → ℤ
  | 0 => 0
  | n + 1 =>
    if 10000000 ≤ elapsedAt ts (n + 1) - lastCheck ts n then elapsedAt ts (n + 1)
    else lastCheck ts n

/-- The reading after the first `n` comes a second or more after the last drift check. -/
def Due (ts : ℕ → Instant × Span) (n : ℕ) : Prop :=
  10000000 ≤ elapsedAt ts (n + 1) - lastCheck ts n

/-- The reading after the first `n` sets the clock anew: it moves the anchor. -/
def Resyncs (ts : ℕ → Instant × Span) (n : ℕ) : Prop := (run ts (n + 1)).base ≠ (run ts n).base

/-- The clock at the next reading, if it only runs on. -/
def runningOn (ts : ℕ → Instant × Span) (n : ℕ) : ℤ :=
  shownAt ts n + (elapsedAt ts (n + 1) - elapsedAt ts n)

/-- The sums of the reading after the first `n` stay in the range of ticks. -/
def SumsFit (ts : ℕ → Instant × Span) (n : ℕ) : Prop :=
  (run ts n).ReadFits (ts (n + 1)).1 (ts (n + 1)).2

variable {ts : ℕ → Instant × Span} {n count : ℕ}

instance : Decidable (Due ts n) := inferInstanceAs (Decidable (_ ≤ _))

instance : Decidable (Resyncs ts n) := inferInstanceAs (Decidable (_ ≠ _))

instance : Decidable (SumsFit ts n) := inferInstanceAs (Decidable (ReadFits ..))

theorem origin_run (ts : ℕ → Instant × Span) (n : ℕ) : (run ts n).origin = (ts 0).2 := by
  induction n with
  | zero => rfl
  | succ n ih => rw [run, read_eq, origin_check, ih]

theorem inUse_run (ts : ℕ → Instant × Span) (n : ℕ) : (run ts n).InUse := by
  induction n with
  | zero => exact .start trivial
  | succ n ih => exact .read ih trivial

theorem run_succ (ts : ℕ → Instant × Span) (n : ℕ) :
    run ts (n + 1) =
      (run ts n).check (ts (n + 1)).1 (Ticks.ofSpan ((ts (n + 1)).2 - (ts 0).2)) := by
  rw [run, read_eq, origin_run]

theorem elapsedAt_nonneg (ts : ℕ → Instant × Span) (n : ℕ) : 0 ≤ elapsedAt ts n :=
  (Ticks.ofSpan_bounds _).1

/-- The two parts of `SumsFit`, in the terms of a run. -/
theorem SumsFit.parts (h : SumsFit ts n) :
    Fits ((run ts n).base.toInt + elapsedAt ts (n + 1)) ∧
      (10000000 ≤ elapsedAt ts (n + 1) - (run ts n).checked.toInt →
        (run ts n).ResyncFits (ts (n + 1)).1 (Ticks.ofSpan ((ts (n + 1)).2 - (ts 0).2))) := by
  unfold SumsFit ReadFits at h
  dsimp only at h
  rwa [origin_run] at h

/-- A reading shows the anchor after it and the elapsed time. -/
theorem shownAt_succ (h : SumsFit ts n) :
    shownAt ts (n + 1) = (run ts (n + 1)).base.toInt + elapsedAt ts (n + 1) := by
  obtain ⟨hsum, hresync⟩ := h.parts
  have hcheck : (run ts n).CheckFits (ts (n + 1)).1 (Ticks.ofSpan ((ts (n + 1)).2 - (ts 0).2)) :=
    fun hd => ⟨hsum, hresync hd⟩
  have hfits := (fits_check_iff (inUse_run ts n) (elapsedAt_nonneg ts (n + 1)) hcheck).2 hsum
  rw [run_succ, shownAt, read_eq, origin_run]
  exact Ticks.toInt_add hfits

/-- **A clock shows its anchor and the elapsed time.** -/
theorem shown_eq (h : ∀ m < n, SumsFit ts m) :
    shownAt ts n = (run ts n).base.toInt + elapsedAt ts n := by
  cases n with
  | zero =>
    have hstart : elapsedAt ts 0 = 0 := by
      unfold elapsedAt
      rw [Nat.sub_self]
      rfl
    rw [hstart, Int.add_zero]
    rfl
  | succ n => exact shownAt_succ (h n (Nat.lt_succ_self n))

/-- How far the wall clock is ahead of a clock that runs on. -/
def aheadAt (ts : ℕ → Instant × Span) (n : ℕ) : ℤ := wallAt ts (n + 1) - runningOn ts n

/-- The drift of a run is that of a clock that runs on. -/
theorem drift_run (h : ∀ m < n, SumsFit ts m) :
    (run ts n).drift (ts (n + 1)).1 (Ticks.ofSpan ((ts (n + 1)).2 - (ts 0).2)) = aheadAt ts n := by
  unfold aheadAt runningOn drift
  rw [shown_eq h]
  unfold wallAt elapsedAt
  omega

/-- **The steps of a run.** Before a second has passed since the last drift check, a reading leaves
the clock as it is. Afterwards it notes a drift check; the anchor is kept if the wall clock is less
than a second away, and else moved so that the clock shows the wall clock. -/
theorem step_cases (h : ∀ m ≤ n, SumsFit ts m) :
    (elapsedAt ts (n + 1) - (run ts n).checked.toInt < 10000000 ∧ run ts (n + 1) = run ts n) ∨
      (10000000 ≤ elapsedAt ts (n + 1) - (run ts n).checked.toInt ∧
        (run ts (n + 1)).checked.toInt = elapsedAt ts (n + 1) ∧
        (((aheadAt ts n).natAbs < 10000000 ∧ (run ts (n + 1)).base = (run ts n).base) ∨
          (10000000 ≤ (aheadAt ts n).natAbs ∧
            (run ts (n + 1)).base.toInt = wallAt ts (n + 1) - elapsedAt ts (n + 1)))) := by
  obtain ⟨hsum, hresync⟩ := (h n (Nat.le_refl n)).parts
  rw [← drift_run fun m hm => h m (Nat.le_of_lt hm), run_succ]
  rcases check_cases (inUse_run ts n) (elapsedAt_nonneg ts (n + 1)) hsum hresync with
    hearly | ⟨hdue, hchecked, hbase⟩
  · exact Or.inl hearly
  · exact Or.inr ⟨hdue, congrArg Int64.toInt hchecked, hbase⟩

/-- **The clock knows when its last drift check was.** -/
theorem checked_run (h : ∀ m < n, SumsFit ts m) : (run ts n).checked.toInt = lastCheck ts n := by
  induction n with
  | zero => rfl
  | succ n ih =>
    have ih := ih fun m hm => h m (Nat.lt_succ_of_lt hm)
    rw [lastCheck, ← ih]
    rcases step_cases fun m hm => h m (Nat.lt_succ_of_le hm) with ⟨hearly, hc⟩ | ⟨hdue, hc, -⟩
    · rw [hc, if_neg (Int.not_le.2 hearly)]
    · rw [hc, if_pos hdue]

/-! ## Readings -/

/-- **A reading sets the clock anew** exactly if a drift check is due and finds the wall clock a
second or more away. The clock then shows the wall clock, and runs on otherwise. -/
theorem resyncs_iff (h : ∀ m ≤ n, SumsFit ts m) :
    (Resyncs ts n ↔ Due ts n ∧ 10000000 ≤ (aheadAt ts n).natAbs) ∧
      shownAt ts (n + 1) = if Resyncs ts n then wallAt ts (n + 1) else runningOn ts n := by
  have hbefore : ∀ m < n, SumsFit ts m := fun m hm => h m (Nat.le_of_lt hm)
  have hnext := shownAt_succ (h n (Nat.le_refl n))
  have hlast := shown_eq hbefore
  have hcases := step_cases h
  rw [checked_run hbefore] at hcases
  -- a clock with the anchor of before runs on
  have hkept : (run ts (n + 1)).base = (run ts n).base → ¬ Resyncs ts n ∧
      shownAt ts (n + 1) = if Resyncs ts n then wallAt ts (n + 1) else runningOn ts n := by
    intro hbase
    have hstays : ¬ Resyncs ts n := not_not_intro hbase
    refine ⟨hstays, ?_⟩
    rw [if_neg hstays, hnext, hbase, runningOn, hlast]
    omega
  rcases hcases with ⟨hearly, hc⟩ | ⟨hdue, -, ⟨hnear, hc⟩ | ⟨hfar, hc⟩⟩
  · obtain ⟨hstays, hshown⟩ := hkept (congrArg base hc)
    exact ⟨iff_of_false hstays fun hboth => Int.not_le.2 hearly hboth.1, hshown⟩
  · obtain ⟨hstays, hshown⟩ := hkept hc
    exact ⟨iff_of_false hstays fun hboth => Nat.not_le.2 hnear hboth.2, hshown⟩
  · -- the anchor moves by the drift, which is not zero
    have hmoved : Resyncs ts n := by
      intro hsame
      rw [hsame] at hc
      unfold aheadAt runningOn at hfar
      omega
    rw [if_pos hmoved, hnext, hc]
    exact ⟨iff_of_true hmoved ⟨hdue, hfar⟩, by omega⟩

/-- The monotonic clock does not go back. -/
theorem elapsedAt_mono (hmono : (ts n).2 ≤ (ts (n + 1)).2) :
    elapsedAt ts n ≤ elapsedAt ts (n + 1) :=
  Ticks.ofSpan_mono (Nat.sub_le_sub_right hmono _)

/-- **The system clock follows the wall clock.** Let a clock be started at the first of a sequence
of times and read at the next ones; the wall clock may read anything, the monotonic clock does not
go back, and the sums stay in the range of ticks.

A reading sets the clock anew only if a second or more has passed since the last drift check and the
wall clock is then a second or more away from the clock that runs on, and it does if so. The clock
then shows the wall clock, and otherwise what it showed before and the elapsed time. So readings do
not fall while the clock is not set anew. A reading that comes a second or more after the last drift
check is less than a second away from the wall clock. -/
theorem tracks_wall (ts : ℕ → Instant × Span) (count : ℕ)
    (hmono : ∀ n < count, (ts n).2 ≤ (ts (n + 1)).2) (hfits : ∀ n < count, SumsFit ts n) :
    (∀ n < count,
        (run ts n).checked.toInt = lastCheck ts n ∧
          (Resyncs ts n ↔
            Due ts n ∧ 10000000 ≤ (wallAt ts (n + 1) - runningOn ts n).natAbs) ∧
          (Resyncs ts n → shownAt ts (n + 1) = wallAt ts (n + 1)) ∧
          (¬ Resyncs ts n →
            shownAt ts (n + 1) = shownAt ts n + (elapsedAt ts (n + 1) - elapsedAt ts n)) ∧
          (Due ts n → (shownAt ts (n + 1) - wallAt ts (n + 1)).natAbs < 10000000)) ∧
      ∀ i j, i ≤ j → j ≤ count → (∀ n, i ≤ n → n < j → ¬ Resyncs ts n) →
        shownAt ts i ≤ shownAt ts j := by
  have hstep : ∀ n < count, (Resyncs ts n ↔ Due ts n ∧ 10000000 ≤ (aheadAt ts n).natAbs) ∧
      shownAt ts (n + 1) = if Resyncs ts n then wallAt ts (n + 1) else runningOn ts n :=
    fun n hn => resyncs_iff fun m hm => hfits m (by omega)
  refine ⟨fun n hn => ⟨?_, (hstep n hn).1, fun h => ?_, fun h => ?_, fun hdue => ?_⟩, ?_⟩
  · exact checked_run fun m hm => hfits m (by omega)
  · rw [(hstep n hn).2, if_pos h]
  · rw [(hstep n hn).2, if_neg h, runningOn]
  · -- a check that finds the clock a second off sets it anew
    obtain ⟨hiff, hshown⟩ := hstep n hn
    by_cases h : Resyncs ts n
    · rw [hshown, if_pos h, Int.sub_self]
      decide
    · have hnear : ¬ 10000000 ≤ (aheadAt ts n).natAbs := fun hfar => h (hiff.2 ⟨hdue, hfar⟩)
      rw [hshown, if_neg h]
      unfold aheadAt at hnear
      omega
  · -- by induction on the run, every reading adds the time that elapsed
    intro i j hij hj hkept
    induction j, hij using Nat.le_induction with
    | base => exact Int.le_refl _
    | succ j hij ih =>
      have hle := ih (by omega) fun n hi hn => hkept n hi (by omega)
      have helapsed := elapsedAt_mono (hmono j hj)
      rw [(hstep j hj).2, if_neg (hkept j hij (Nat.lt_succ_self j)), runningOn]
      omega

/-- Times at which the wall clock jumps: an hour ahead just before a drift check is due, and back
just after it. -/
def jumping (n : ℕ) : Instant × Span :=
  [(1000000000000, 0), (1000000000000, 500), (4600000000000, 999999999),
    (4600000000000, 1000000000), (1000000000000, 1000000500), (1000000000000, 1999999999),
    (1000000000000, 2000000000)].getD n (1000000000000, 2000000000)

/-- The jump ahead shows when the first drift check is due, the jump back only at the second one. -/
theorem tracks_wall_jumping :
    (∀ n < 6, (jumping n).2 ≤ (jumping (n + 1)).2) ∧ (∀ n < 6, SumsFit jumping n) ∧
      ¬ Resyncs jumping 1 ∧ Resyncs jumping 2 ∧ shownAt jumping 3 = 46000000000 ∧
      shownAt jumping 3 ≤ shownAt jumping 5 ∧ Due jumping 5 ∧
      (shownAt jumping 6 - wallAt jumping 6).natAbs < 10000000 := by
  have hmono : ∀ n < 6, (jumping n).2 ≤ (jumping (n + 1)).2 := by decide
  have hfits : ∀ n < 6, SumsFit jumping n := by decide
  have hdue : Due jumping 5 := by decide
  have hkept : ∀ n < 5, 3 ≤ n → ¬ Resyncs jumping n := by decide
  obtain ⟨hsteps, hrise⟩ := tracks_wall jumping 6 hmono hfits
  obtain ⟨-, hearly, -⟩ := hsteps 1 (by decide)
  obtain ⟨-, hfirst, hwall, -⟩ := hsteps 2 (by decide)
  obtain ⟨-, -, -, -, hnear⟩ := hsteps 5 (by decide)
  have hmoved : Resyncs jumping 2 := hfirst.2 (by decide)
  refine ⟨hmono, hfits, fun h => ?_, hmoved, hwall hmoved, ?_, hdue, hnear hdue⟩
  · exact absurd (hearly.1 h).1 (by decide)
  · exact hrise 3 5 (by decide) (by decide) fun n h3 h5 => hkept n h5 h3

end SystemClock

end UuidForge
