import UuidForge.Proofs.Counter.Run
import UuidForge.Proofs.Masks

/-!
# The counter in whole words

Clock and sequence of a counter are kept in words of 16 bits, of which they use 12 and 14. Masks cut
a candidate down to these bits, and increments stop at the largest numbers, so no bit beyond them is
ever set: the words hold what the counter holds.

* `CounterWords.after`: the value after another, in words.
* `CounterWords.after_words`: **a step in words is a step of the counter.**
* `CounterWords.returned_eq`: so is a run.
* `CounterWords.follows_clock`: **the counter follows its clock.**
-/

namespace UuidForge

open Ticks (Fits)

/-- A value of the counter with clock and sequence in words of 16 bits. -/
structure CounterWords where
  milliseconds : Int64
  clock : BitVec 16
  sequence : BitVec 16
  deriving DecidableEq, Repr

/-- The words that hold a value. -/
def CounterValue.words (v : CounterValue) : CounterWords where
  milliseconds := v.milliseconds
  clock := v.clock.setWidth 16
  sequence := v.sequence.setWidth 16

namespace CounterWords

/-- The largest clock. -/
def maxClock : BitVec 16 := 0x0fff

/-- The largest sequence. -/
def maxSequence : BitVec 16 := 0x3fff

/-- The words that adopt a candidate: its clock and its seed are masked, the top bit of the sequence
with them. -/
def seeded (c : Candidate) : CounterWords where
  milliseconds := c.milliseconds
  clock := c.clock &&& maxClock
  sequence := c.seed &&& (maxSequence >>> 1)

/-- The value that is incremented: by one in the sequence, or by one in the clock with a new
sequence. The last value of a millisecond is not. -/
def raised (p : CounterWords) (restart : BitVec 16) : Option CounterWords :=
  if p.sequence < maxSequence then some { p with sequence := p.sequence + 1 }
  else if p.clock < maxClock then some { p with clock := p.clock + 1, sequence := restart }
  else none

/-- The value after `p` for a reading `v`, if there is one. -/
def after (p v : CounterWords) : Option CounterWords :=
  if v.milliseconds < p.milliseconds ∨ v.milliseconds = p.milliseconds ∧ v.clock ≤ p.clock then
    if p.milliseconds - v.milliseconds > CounterValue.rollbackAllowance then some v
    else p.raised v.sequence
  else some v

/-- The next value for a candidate, if there is one. -/
def value? (last : Option CounterWords) (c : Candidate) : Option CounterWords :=
  match last with
  | some p => p.after (seeded c)
  | none => some (seeded c)

/-- The last value that a new counter returned for the first `n` candidates of a run. -/
def lastOf (cs : ℕ → Candidate) : ℕ → Option CounterWords
  | 0 => none
  | n + 1 => value? (lastOf cs n) (cs n) <|> lastOf cs n

/-- What a new counter returns for candidate `n` of a run. -/
def returned (cs : ℕ → Candidate) (n : ℕ) : Option CounterWords := value? (lastOf cs n) (cs n)

variable {p v : CounterValue} {c : Candidate} {cs : ℕ → Candidate} {n : ℕ} {w : CounterWords}

/-! ## Steps -/

theorem toNat_clock (v : CounterValue) : v.words.clock.toNat = v.clock.toNat :=
  BitVec.toNat_setWidth_of_le (by decide)

theorem toNat_sequence (v : CounterValue) : v.words.sequence.toNat = v.sequence.toNat :=
  BitVec.toNat_setWidth_of_le (by decide)

/-- **Masks cut a candidate down** to what the counter adopts. -/
theorem words_adopted (c : Candidate) : c.adopted.words = seeded c := by
  have hclock : (c.clock.setWidth 12).setWidth 16 = c.clock &&& maxClock :=
    setWidth_setWidth_eq_and (by decide) c.clock
  have hsequence : ((c.seed.setWidth 13).setWidth 14).setWidth 16 =
      c.seed &&& (maxSequence >>> 1) := by
    -- 13 bits are not lost in a word of 14
    rw [BitVec.setWidth_setWidth (by decide)]
    exact setWidth_setWidth_eq_and (by decide) c.seed
  unfold CounterValue.words Candidate.adopted seeded
  dsimp only
  rw [hclock, hsequence]

/-- Increments stop before they reach a bit beyond those in use. -/
theorem raised_words (p : CounterValue) (restart : BitVec 14) :
    p.words.raised (restart.setWidth 16) = (p.raised restart).map CounterValue.words := by
  have hsequence : p.words.sequence < maxSequence ↔ p.sequence < 0x3fff := by
    rw [BitVec.lt_def, toNat_sequence, BitVec.lt_def]
    exact Iff.rfl
  have hclock : p.words.clock < maxClock ↔ p.clock < 0xfff := by
    rw [BitVec.lt_def, toNat_clock, BitVec.lt_def]
    exact Iff.rfl
  unfold raised CounterValue.raised
  by_cases hs : p.sequence < 0x3fff
  · have hnext : p.words.sequence + 1 = (p.sequence + 1).setWidth 16 := by
      -- below the largest sequence, neither word wraps
      have hword := toNat_sequence p
      bv_omega
    rw [if_pos hs, if_pos (hsequence.2 hs), hnext]
    rfl
  · rw [if_neg hs, if_neg (mt hsequence.1 hs)]
    by_cases hc : p.clock < 0xfff
    · have hnext : p.words.clock + 1 = (p.clock + 1).setWidth 16 := by
        have hword := toNat_clock p
        bv_omega
      rw [if_pos hc, if_pos (hclock.2 hc), hnext]
      rfl
    · rw [if_neg hc, if_neg (mt hclock.1 hc)]
      rfl

/-- **A step in words is a step of the counter.** -/
theorem after_words (p v : CounterValue) :
    p.words.after v.words = (p.after v).map CounterValue.words := by
  have hlater : (v.words.milliseconds < p.words.milliseconds ∨
      v.words.milliseconds = p.words.milliseconds ∧ v.words.clock ≤ p.words.clock) ↔
        p.SameOrLater v := by
    rw [BitVec.le_def, toNat_clock, toNat_clock, ← BitVec.le_def]
    exact Iff.rfl
  rw [CounterValue.after_def]
  unfold after
  by_cases hl : p.SameOrLater v
  · rw [if_pos (hlater.2 hl), if_neg (not_not_intro hl)]
    by_cases hr : p.milliseconds - v.milliseconds > CounterValue.rollbackAllowance
    · rw [if_pos hr]
      exact if_pos hr
    · rw [if_neg hr, ← raised_words]
      exact if_neg hr
  · rw [if_neg (mt hlater.1 hl), if_pos hl]
    rfl

theorem value?_words (k : Counter) (c : Candidate) :
    value? (k.last.map CounterValue.words) c = (k.value? c).map CounterValue.words := by
  unfold value? Counter.value?
  rw [← words_adopted]
  cases k.last with
  | none => rfl
  | some p => exact after_words p c.adopted

/-! ## Runs -/

/-- The words of a run hold what a new counter holds. -/
theorem lastOf_eq (cs : ℕ → Candidate) (n : ℕ) :
    lastOf cs n = (Counter.after {} cs n).last.map CounterValue.words := by
  induction n with
  | zero => rfl
  | succ n ih =>
    rw [lastOf, ih, value?_words, Counter.after, Counter.next]
    cases (Counter.after {} cs n).value? (cs n) with
    | none => rfl
    | some v => rfl

/-- **A run in words is a run of the counter.** -/
theorem returned_eq (cs : ℕ → Candidate) (n : ℕ) :
    returned cs n = (Counter.returned {} cs n).map CounterValue.words := by
  rw [returned, lastOf_eq, value?_words]
  rfl

/-- **The counter follows its clock.** Let a new counter be given any candidates, of which no two
are so far apart that the difference of their milliseconds does not fit. What it returns is the same
in words of 16 bits. A value has at most 12 bits in its clock and 14 bits in its sequence. It is not
earlier than the candidate with its clock cut to 12 bits, and at most ten seconds ahead of it; and
its milliseconds are those of a candidate that was already given. -/
theorem follows_clock (cs : ℕ → Candidate) (n : ℕ)
    (hfits : ∀ i j, i < j → j ≤ n →
      Fits ((cs i).milliseconds.toInt - (cs j).milliseconds.toInt)) :
    returned cs n = (Counter.returned {} cs n).map CounterValue.words ∧
      ∀ w, returned cs n = some w →
        w.clock ≤ 0x0fff ∧ w.sequence ≤ 0x3fff ∧
          ((cs n).milliseconds < w.milliseconds ∨
            (cs n).milliseconds = w.milliseconds ∧ (cs n).clock &&& 0x0fff ≤ w.clock) ∧
          w.milliseconds.toInt ≤ (cs n).milliseconds.toInt + 10000 ∧
          ∃ i ≤ n, w.milliseconds = (cs i).milliseconds := by
  refine ⟨returned_eq cs n, fun w hw => ?_⟩
  rw [returned_eq, Option.map_eq_some_iff] at hw
  obtain ⟨v, hv, rfl⟩ := hw
  have hclock := toNat_clock v
  have hsequence := toNat_sequence v
  have hcut : (cs n).adopted.words.clock = (cs n).clock &&& 0x0fff :=
    congrArg clock (words_adopted (cs n))
  obtain ⟨hlater, hahead⟩ := Counter.follows_of_returned hv fun i hi => hfits i n hi (Nat.le_refl n)
  obtain ⟨i, hi, hms⟩ := Counter.exists_presented (Counter.last_after_of_returned hv)
  refine ⟨by bv_omega, by bv_omega, ?_, hahead, i, Nat.le_of_lt_succ hi, hms⟩
  rcases hlater with hlt | ⟨heq, hle⟩
  · exact Or.inl hlt
  · refine Or.inr ⟨heq, ?_⟩
    rw [← hcut, BitVec.le_def, toNat_clock, toNat_clock]
    exact BitVec.le_def.1 hle

/-- A clock at the end of a millisecond that goes back ten seconds, and then one millisecond
more. -/
def lagging (n : ℕ) : Candidate :=
  [⟨20000, 0x1fff, 0xffff⟩, ⟨10000, 5, 0⟩, ⟨9999, 0, 7⟩].getD n ⟨9999, 0, 7⟩

/-- Ten seconds back, the counter is ahead by as much; one millisecond further, it starts over. -/
theorem follows_clock_lagging :
    (∀ i < 3, ∀ j < 3, i < j →
      Fits ((lagging i).milliseconds.toInt - (lagging j).milliseconds.toInt)) ∧
      returned lagging 1 = some ⟨20000, 0x0fff, 0x2000⟩ ∧
      returned lagging 2 = some ⟨9999, 0, 7⟩ ∧
      (20000 : Int64).toInt ≤ (lagging 1).milliseconds.toInt + 10000 ∧
      ∃ i ≤ 1, (20000 : Int64) = (lagging i).milliseconds := by
  have hfits : ∀ i < 3, ∀ j < 3, i < j →
      Fits ((lagging i).milliseconds.toInt - (lagging j).milliseconds.toInt) := by decide
  have hvalue : returned lagging 1 = some ⟨20000, 0x0fff, 0x2000⟩ := by decide
  obtain ⟨-, hfollows⟩ := follows_clock lagging 1 fun i j hij hj =>
    hfits i (by omega) j (by omega) hij
  obtain ⟨-, -, -, hahead, hpresented⟩ := hfollows _ hvalue
  exact ⟨hfits, hvalue, by decide, hahead, hpresented⟩

end CounterWords

end UuidForge
