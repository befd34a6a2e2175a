import Mathlib.Data.Prod.Lex
import UuidForge.Proofs.Counter.Words

/-!
# Splitting a point of time

A reading is split into whole milliseconds and a clock of 4096 steps to the millisecond. Both are
rounded down, before 1970 too, where the division of words rounds in the other direction. So
together they are one number: the steps since 1970, rounded down once.

* `Ticks.toInt_quotient`, `Ticks.toInt_remainder`: division that rounds down, made of division that
  rounds towards zero.
* `Candidate.ofWords_eq`: **the split in words is the split in numbers**; shift, division and
  narrowing lose nothing.
* `Candidate.steps_ofTicks`: **milliseconds and clock are rounded down once.**
* `Candidate.moment_le_moment_iff`: milliseconds and clock are in the order of the steps.
* `Candidate.split_in_order`: **a split is exact and keeps the order of time.**
-/

namespace UuidForge

namespace Ticks

/-- The quotient by a positive number, rounded down. Division of words rounds towards zero. -/
def quotient (t d : Ticks) : Ticks := if t % d < 0 then t / d - 1 else t / d

/-- The remainder of the quotient that is rounded down. It is not negative. -/
def remainder (t d : Ticks) : Ticks := if t % d < 0 then t % d + d else t % d

variable {t d : Ticks} {n : ℤ}

/-! ## Division -/

/-- Division of words leaves a negative remainder of a negative number that is no multiple. -/
theorem mod_neg_iff (hd : 0 < d.toInt) : t % d < 0 ↔ ¬ (0 ≤ t.toInt ∨ d.toInt ∣ t.toInt) := by
  have hpos := Int.emod_nonneg t.toInt (Int.ne_of_gt hd)
  have hlt := Int.emod_lt_of_pos t.toInt hd
  rw [Int64.lt_iff_toInt_lt, Int64.toInt_mod, Int.tmod_eq_emod, Int64.toInt_zero]
  by_cases h : 0 ≤ t.toInt ∨ d.toInt ∣ t.toInt
  · rw [if_pos h]
    omega
  · rw [if_neg h]
    omega

theorem toInt_div (hd : 0 < d.toInt) : (t / d).toInt = t.toInt.tdiv d.toInt := by
  apply Int64.toInt_div_of_ne_right
  intro h
  rw [h] at hd
  exact absurd hd (by decide)

/-- **A quotient is rounded down.** -/
theorem toInt_quotient (hd : 0 < d.toInt) : (t.quotient d).toInt = t.toInt / d.toInt := by
  have hdiv := toInt_div (t := t) hd
  rw [Int.tdiv_eq_ediv] at hdiv
  unfold quotient
  by_cases h : 0 ≤ t.toInt ∨ d.toInt ∣ t.toInt
  · rw [if_pos h] at hdiv
    rw [if_neg (mt (mod_neg_iff hd).1 (not_not_intro h)), hdiv, Int.add_zero]
  · have hneg : t.toInt < 0 := by omega
    rw [if_neg h, Int.sign_eq_one_of_pos hd] at hdiv
    -- the quotient of a negative number is no smaller than the number
    have hsmall : t.toInt ≤ t.toInt / d.toInt :=
      Int.self_le_ediv_of_nonpos_of_nonneg (Int.le_of_lt hneg) (Int.le_of_lt hd)
    have hlarge : t.toInt / d.toInt < 0 := Int.ediv_neg_of_neg_of_pos hneg hd
    have hlo := t.le_toInt
    have hone : (1 : Ticks).toInt = 1 := Int64.toInt_one
    have hfits : Fits ((t / d).toInt - (1 : Ticks).toInt) := by
      unfold Fits
      omega
    rw [if_pos ((mod_neg_iff hd).2 h), toInt_sub hfits]
    omega

/-- **A remainder is not negative.** -/
theorem toInt_remainder (hd : 0 < d.toInt) : (t.remainder d).toInt = t.toInt % d.toInt := by
  have hmod := Int64.toInt_mod t d
  rw [Int.tmod_eq_emod] at hmod
  unfold remainder
  by_cases h : 0 ≤ t.toInt ∨ d.toInt ∣ t.toInt
  · rw [if_pos h] at hmod
    rw [if_neg (mt (mod_neg_iff hd).1 (not_not_intro h)), hmod]
    omega
  · rw [if_neg h] at hmod
    have hpos := Int.emod_nonneg t.toInt (Int.ne_of_gt hd)
    have hlt := Int.emod_lt_of_pos t.toInt hd
    have hhi := d.toInt_lt
    have hfits : Fits ((t % d).toInt + d.toInt) := by
      unfold Fits
      omega
    rw [if_pos ((mod_neg_iff hd).2 h), toInt_add hfits]
    omega

/-! ## Words that are not negative -/

theorem toNat_toBitVec (h : 0 ≤ t.toInt) : (t.toBitVec.toNat : ℤ) = t.toInt := by
  have hlt := t.toBitVec.isLt
  have hword := BitVec.toInt_eq_toNat_cond t.toBitVec
  rw [Int64.toInt_toBitVec] at hword
  omega

/-- **A small number is shifted without loss.** -/
theorem toInt_shiftLeft (hpos : 0 ≤ t.toInt) (hlt : t.toInt < 281474976710656) :
    (t <<< (12 : Ticks)).toInt = t.toInt * 4096 := by
  have hnat := toNat_toBitVec hpos
  have hplaces : (12 : Ticks).toBitVec.smod 64 = 12 := by decide
  rw [← Int64.toInt_toBitVec, Int64.toBitVec_shiftLeft, hplaces, BitVec.shiftLeft_eq',
    BitVec.toInt_shiftLeft, Nat.shiftLeft_eq]
  have hpower : t.toBitVec.toNat * 2 ^ (12 : BitVec 64).toNat = t.toBitVec.toNat * 4096 := rfl
  rw [hpower, Int.bmod_eq_of_le (by omega) (by omega)]
  omega

end Ticks

namespace Candidate

open Ticks (perMillisecond)

/-- The clock in a word of 64 bits: what is left of a millisecond, shifted and divided. -/
def clockWord (t : Ticks) : Ticks := (t.remainder perMillisecond <<< (12 : Ticks)) / perMillisecond

/-- The split of a point of time in words; the clock is cut to 16 bits. -/
def ofWords (t : Ticks) (seed : BitVec 16) : Candidate where
  milliseconds := t.quotient perMillisecond
  clock := (clockWord t).toBitVec.setWidth 16
  seed := seed

/-- The steps of the clock since 1970, 4096 to the millisecond. -/
def steps (c : Candidate) : ℤ := c.milliseconds.toInt * 4096 + c.clock.toNat

/-- What the counter compares: milliseconds, and then the clock. -/
def moment (c : Candidate) : Int64 ×ₗ BitVec 16 := toLex (c.milliseconds, c.clock)

variable {c c' : Candidate} {s t : Ticks}

/-! ## The parts -/

theorem milliseconds_ofTicks (t : Ticks) (seed : BitVec 16) :
    (ofTicks t seed).milliseconds.toInt = t.toInt / 10000 :=
  readAt_adopted t seed

theorem clock_ofTicks (t : Ticks) (seed : BitVec 16) :
    ((ofTicks t seed).clock.toNat : ℤ) = t.toInt % 10000 * 4096 / 10000 := by
  have hlt : (t.toInt % 10000).toNat * 4096 / 10000 < 65536 := by omega
  have hclock : (ofTicks t seed).clock.toNat = (t.toInt % 10000).toNat * 4096 / 10000 :=
    (BitVec.toNat_ofNat _ 16).trans (Nat.mod_eq_of_lt hlt)
  rw [hclock]
  omega

theorem clock_ofTicks_lt (t : Ticks) (seed : BitVec 16) : (ofTicks t seed).clock.toNat < 4096 := by
  have hclock := clock_ofTicks t seed
  omega

theorem toInt_clockWord (t : Ticks) : (clockWord t).toInt = t.toInt % 10000 * 4096 / 10000 := by
  have hunit : perMillisecond.toInt = 10000 := by decide
  have hpos : 0 < perMillisecond.toInt := by omega
  have hrest : (t.remainder perMillisecond).toInt = t.toInt % 10000 := by
    rw [Ticks.toInt_remainder hpos, hunit]
  have hshifted : (t.remainder perMillisecond <<< (12 : Ticks)).toInt = t.toInt % 10000 * 4096 := by
    rw [Ticks.toInt_shiftLeft (by omega) (by omega), hrest]
  rw [clockWord, Ticks.toInt_div hpos, hshifted, hunit]
  apply Int.tdiv_eq_ediv_of_nonneg
  omega

/-- **Narrowing loses nothing.** -/
theorem clock_ofTicks_eq (t : Ticks) (seed : BitVec 16) :
    ((ofTicks t seed).clock.toNat : ℤ) = (clockWord t).toInt := by
  rw [clock_ofTicks, toInt_clockWord]

/-- **The split in words is the split in numbers.** -/
theorem ofWords_eq (t : Ticks) (seed : BitVec 16) : ofWords t seed = ofTicks t seed := by
  have hunit : perMillisecond.toInt = 10000 := by decide
  have hms : t.quotient perMillisecond = (ofTicks t seed).milliseconds := by
    apply Int64.toInt_inj.1
    rw [Ticks.toInt_quotient (by omega), milliseconds_ofTicks, hunit]
  have hclock : (clockWord t).toBitVec.setWidth 16 = (ofTicks t seed).clock := by
    have hnarrow := clock_ofTicks_eq t seed
    have hlt := clock_ofTicks_lt t seed
    have hword := Ticks.toNat_toBitVec (t := clockWord t) (by omega)
    apply BitVec.eq_of_toNat_eq
    rw [BitVec.toNat_setWidth]
    omega
  unfold ofWords
  rw [hms, hclock]
  rfl

/-- The mask of the counter takes nothing from the clock. -/
theorem clock_seeded (t : Ticks) (seed : BitVec 16) :
    (CounterWords.seeded (ofTicks t seed)).clock = (ofTicks t seed).clock := by
  have hlt := clock_ofTicks_lt t seed
  exact (and_ones_eq_self_iff (m := 12) (by decide) _).2 hlt

theorem clock_adopted (t : Ticks) (seed : BitVec 16) :
    (ofTicks t seed).adopted.clock.toNat = (ofTicks t seed).clock.toNat := by
  rw [← CounterWords.toNat_clock, CounterWords.words_adopted, clock_seeded]

/-! ## The order -/

/-- **Milliseconds and clock are rounded down once.** -/
theorem steps_ofTicks (t : Ticks) (seed : BitVec 16) :
    (ofTicks t seed).steps = t.toInt * 4096 / 10000 := by
  have hms := milliseconds_ofTicks t seed
  have hclock := clock_ofTicks t seed
  unfold steps
  omega

/-- Where the clock has 12 bits, milliseconds and clock are in the order of the steps. -/
theorem moment_le_moment_iff (hc : c.clock.toNat < 4096) (hc' : c'.clock.toNat < 4096) :
    c.moment ≤ c'.moment ↔ c.steps ≤ c'.steps := by
  unfold moment steps
  rw [Prod.Lex.toLex_le_toLex, Int64.lt_iff_toInt_lt, ← Int64.toInt_inj, BitVec.le_def]
  dsimp only
  omega

/-- A later point of time has no earlier moment. -/
theorem moment_mono (h : s ≤ t) (seed seed' : BitVec 16) :
    (ofTicks s seed).moment ≤ (ofTicks t seed').moment := by
  have hle := Int64.le_iff_toInt_le.1 h
  rw [moment_le_moment_iff (clock_ofTicks_lt s seed) (clock_ofTicks_lt t seed'), steps_ofTicks,
    steps_ofTicks]
  omega

/-- The counter takes no point of time for an earlier one. -/
theorem sameOrLater_adopted (h : s ≤ t) (seed seed' : BitVec 16) :
    (ofTicks t seed').adopted.SameOrLater (ofTicks s seed).adopted := by
  have hmoment := moment_mono h seed seed'
  unfold moment at hmoment
  rw [Prod.Lex.toLex_le_toLex, Int64.lt_iff_toInt_lt, ← Int64.toInt_inj, BitVec.le_def] at hmoment
  rw [CounterValue.sameOrLater_iff, clock_adopted, clock_adopted]
  exact hmoment

/-- **A split is exact and keeps the order of time**, for every point of time, before 1970 too. The
split in words is the one in numbers. Its millisecond is the one that `t` lies in, and its clock
counts the whole steps of the rest. They take 12 bits, so neither the narrowing nor the mask of the
counter loses anything. No earlier point of time has a later millisecond, or a later clock in the
same millisecond, and the counter compares them in this order. -/
theorem split_in_order (t : Ticks) (seed : BitVec 16) :
    ofWords t seed = ofTicks t seed ∧
      ((ofTicks t seed).milliseconds.toInt * 10000 ≤ t.toInt ∧
        t.toInt < ((ofTicks t seed).milliseconds.toInt + 1) * 10000) ∧
      ((ofTicks t seed).clock.toNat : ℤ) =
        (t.toInt - (ofTicks t seed).milliseconds.toInt * 10000) * 4096 / 10000 ∧
      (ofTicks t seed).clock ≤ 0x0fff ∧
      ((ofTicks t seed).clock.toNat : ℤ) = (clockWord t).toInt ∧
      (CounterWords.seeded (ofTicks t seed)).clock = (ofTicks t seed).clock ∧
      ∀ s ≤ t, ∀ seed', (ofTicks s seed').moment ≤ (ofTicks t seed).moment ∧
        (ofTicks t seed).adopted.SameOrLater (ofTicks s seed').adopted := by
  have hms := milliseconds_ofTicks t seed
  have hclock := clock_ofTicks t seed
  refine ⟨ofWords_eq t seed, by omega, by omega, ?_, clock_ofTicks_eq t seed,
    clock_seeded t seed, ?_⟩
  · have hlt := clock_ofTicks_lt t seed
    exact BitVec.le_def.2 (Nat.le_of_lt_succ hlt)
  · intro s hs seed'
    exact ⟨moment_mono hs seed' seed, sameOrLater_adopted hs seed' seed⟩

/-- The last tick before 1970 lies in the last step of the millisecond before. -/
theorem split_in_order_before :
    (-1 : Ticks) ≤ 0 ∧ ofWords (-1) 0 = ⟨-1, 0x0fff, 0⟩ ∧
      (ofTicks (-1) 0).moment ≤ (ofTicks 0 0).moment := by
  have hle : (-1 : Ticks) ≤ 0 := by decide
  obtain ⟨-, -, -, -, -, -, horder⟩ := split_in_order 0 0
  obtain ⟨hmoment, -⟩ := horder (-1) hle 0
  exact ⟨hle, by decide, hmoment⟩

end Candidate

end UuidForge
