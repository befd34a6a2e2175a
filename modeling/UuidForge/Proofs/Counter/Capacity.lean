import UuidForge.Proofs.Counter.Words

/-!
# The capacity of a millisecond

While candidates are neither later than the value of a counter nor more than ten seconds behind it,
every call raises the value. It counts up in the sequence, and each time the sequence is used up it
carries into the clock and starts over at the seed of the candidate. So what a clock step is worth
depends on the seed: at least 8193 values, as the top bit of a seed is cleared.

* `CounterValue.room`: how many values are left, if every clock step is worth a given number.
* `CounterValue.room_of_raised`: **every call takes one of them**, and a carry gives back what its
  seed is worth beyond that number.
* `Counter.exists_stands`: **the room that is left in a run**, for any seeds and exactly for one.
* `Counter.returns_until_exhausted`: **how long a counter lasts.**
-/

namespace UuidForge

open Ticks (Fits)

/-- **The candidate is behind a value**: not later, and at most ten seconds back. -/
structure Candidate.Behind (c : Candidate) (p : CounterValue) : Prop where
  notLater : c.milliseconds.toInt < p.milliseconds.toInt ∨
    c.milliseconds.toInt = p.milliseconds.toInt ∧ c.clock.toNat ≤ p.clock.toNat
  near : p.milliseconds.toInt - 10000 ≤ c.milliseconds.toInt

/-- How many values a clock step is worth that starts at the seed of a candidate. -/
def Candidate.worth (c : Candidate) : ℕ := 0x4000 - (c.seed &&& 0x1fff).toNat

/-- The top bit of a sequence is cleared in a seed. -/
theorem Candidate.worth_eq (c : Candidate) :
    c.worth = 0x4000 - c.adopted.sequence.toNat ∧ 8193 ≤ c.worth := by
  have hseed : (c.seed &&& 0x1fff).toNat = c.seed.toNat % 8192 :=
    toNat_and_ones (m := 13) (by decide) c.seed
  have hwords : c.adopted.words.sequence = c.seed &&& 0x1fff :=
    congrArg CounterWords.sequence (CounterWords.words_adopted c)
  rw [worth, ← CounterWords.toNat_sequence, hwords]
  omega

namespace CounterValue

variable {p x : CounterValue} {c : Candidate} {w : ℕ}

/-- Where clock and milliseconds only grow, what was behind stays behind. -/
theorem behind_of_grown (h : c.Behind p) (hms : x.milliseconds = p.milliseconds)
    (hclock : p.clock.toNat ≤ x.clock.toNat) : c.Behind x := by
  obtain ⟨hlater, hnear⟩ := h
  rw [← hms] at hlater hnear
  exact ⟨by omega, hnear⟩

/-- **A candidate behind a value raises it.** -/
theorem after_of_behind (h : c.Behind p) : p.after c.adopted = p.raised c.adopted.sequence := by
  obtain ⟨hlater, hnear⟩ := h
  have hms : c.adopted.milliseconds = c.milliseconds := rfl
  have hclock : c.adopted.clock.toNat ≤ c.clock.toNat := by
    rw [Candidate.adopted, BitVec.toNat_setWidth]
    exact Nat.mod_le _ _
  have hfits : Fits (p.milliseconds.toInt - c.adopted.milliseconds.toInt) := by
    unfold Fits
    rw [hms]
    omega
  have hkept : p.SameOrLater c.adopted ∧
      p.milliseconds.toInt - c.adopted.milliseconds.toInt ≤ 10000 := by
    rw [sameOrLater_iff, hms]
    omega
  rw [after_eq hfits, if_pos hkept]

/-- **How many values are left** in the millisecond of a value, if every further clock step is worth
`w` of them. -/
def room (p : CounterValue) (w : ℕ) : ℕ :=
  (0x3fff - p.sequence.toNat) + (0xfff - p.clock.toNat) * w

/-- Only the last value of a millisecond has none left. -/
theorem room_eq_zero_iff (hw : 0 < w) : p.room w = 0 ↔ p.IsLast := by
  have hs := p.sequence.isLt
  have hc := p.clock.isLt
  have hw : w ≠ 0 := Nat.ne_of_gt hw
  rw [room, Nat.add_eq_zero_iff, Nat.mul_eq_zero, isLast_iff]
  omega

/-- **Every step takes one value**, and a carry gives back what its seed is worth beyond `w`. -/
theorem room_of_raised {restart : BitVec 14} (h : p.raised restart = some x) :
    x.room w + 1 = p.room w ∨ x.room w + 1 + w = p.room w + (0x4000 - restart.toNat) := by
  rcases raised_cases p restart with ⟨-, hnone⟩ | ⟨y, hy, -, ⟨hc, hs⟩ | ⟨hs, hc, hr⟩⟩
  · rw [hnone] at h
    cases h
  · rw [hy] at h
    cases h
    have hlast := x.sequence.isLt
    unfold room
    rw [hc]
    omega
  · rw [hy] at h
    cases h
    have hlast := x.clock.isLt
    have hrestart := restart.isLt
    -- the clock step that the carry takes is worth `w`
    have hstep : 0xfff - p.clock.toNat = (0xfff - x.clock.toNat) + 1 := by omega
    unfold room
    rw [hs, hstep, hr, Nat.succ_mul]
    omega

end CounterValue

namespace Counter

variable {k : Counter} {cs : ℕ → Candidate} {p x : CounterValue} {n w : ℕ}

/-- **How a counter stands** that held `p` and was then given `n` candidates: it holds `x`, which is
in the same millisecond and at least as large as all values before. -/
structure Stands (k : Counter) (cs : ℕ → Candidate) (p : CounterValue) (n : ℕ) (x : CounterValue) :
    Prop where
  last : (k.after cs n).last = some x
  milliseconds : x.milliseconds = p.milliseconds
  rank : p.rank ≤ x.rank
  before : ∀ i < n, ∀ v, k.returned cs i = some v → v.rank ≤ x.rank

/-- In one millisecond, a larger rank has no smaller clock. -/
theorem Stands.clock (h : k.Stands cs p n x) : p.clock.toNat ≤ x.clock.toNat := by
  have hle := h.rank
  have hms := congrArg Int64.toInt h.milliseconds
  have hnot := mt CounterValue.rank_lt_iff.2 (Int.not_lt.2 hle)
  omega

/-- What a counter returns next for a candidate behind its first value. -/
theorem Stands.returned_eq (h : k.Stands cs p n x) (hb : (cs n).Behind p) :
    k.returned cs n = x.raised (cs n).adopted.sequence := by
  have hbehind := CounterValue.behind_of_grown hb h.milliseconds h.clock
  rw [returned, next, value?, h.last]
  exact CounterValue.after_of_behind hbehind

/-- **A value that is returned is larger than all before.** -/
theorem Stands.next {y : CounterValue} (h : k.Stands cs p n x) (hy : k.returned cs n = some y)
    (hb : (cs n).Behind p) : x.rank < y.rank ∧ k.Stands cs p (n + 1) y := by
  have hraised := h.returned_eq hb
  rw [hy] at hraised
  obtain ⟨hlt, hms⟩ := CounterValue.rank_lt_of_raised hraised.symm
  refine ⟨hlt, last_after_of_returned hy, hms.trans h.milliseconds,
    Int.le_trans h.rank (Int.le_of_lt hlt), fun i hi v hv => ?_⟩
  rcases Nat.lt_or_eq_of_le (Nat.le_of_lt_succ hi) with hi | rfl
  · exact Int.le_trans (h.before i hi v hv) (Int.le_of_lt hlt)
  · rw [hy] at hv
    cases hv
    exact Int.le_refl _

/-- A value is returned exactly while there is room. -/
theorem Stands.returned_eq_none_iff (h : k.Stands cs p n x) (hb : (cs n).Behind p) (hw : 0 < w) :
    k.returned cs n = none ↔ x.room w = 0 := by
  rw [h.returned_eq hb, CounterValue.raised_eq_none_iff, CounterValue.room_eq_zero_iff hw]

section Runs

variable (hk : k.last = some p) (hcs : ∀ n, (cs n).Behind p) (hpos : 0 < w)
  (hw : ∀ n, w ≤ (cs n).worth)

include hk hcs hpos hw

/-- **The room that is left in a run.** If every clock step is worth at least `w` values, each call
takes at most one of the room of `p`; if it is worth `w`, each takes exactly one. -/
theorem exists_stands (hn : n ≤ p.room w) :
    ∃ x, k.Stands cs p n x ∧ p.room w ≤ x.room w + n ∧
      ((∀ n, (cs n).worth = w) → p.room w = x.room w + n) := by
  induction n with
  | zero => exact ⟨p, ⟨hk, rfl, Int.le_refl _, nofun⟩, Nat.le_refl _, fun _ => rfl⟩
  | succ n ih =>
    obtain ⟨x, hx, hleft, hexact⟩ := ih (Nat.le_of_succ_le hn)
    have hroom : x.room w ≠ 0 := by omega
    obtain ⟨y, hy⟩ :=
      Option.ne_none_iff_exists'.1 (mt (hx.returned_eq_none_iff (hcs n) hpos).1 hroom)
    -- a carry gives back what its seed is worth beyond `w`, so nothing where that is `w`
    have htakes := CounterValue.room_of_raised (w := w) ((hx.returned_eq (hcs n)).symm.trans hy)
    rw [← (cs n).worth_eq.1] at htakes
    refine ⟨y, (hx.next hy (hcs n)).2, ?_, fun hsame => ?_⟩
    · have hle := hw n
      omega
    · have heq := hsame n
      have hlast := hexact hsame
      omega

/-- Within the room, a value is returned that is larger than all before. -/
theorem exists_returned (hn : n < p.room w) :
    ∃ v, k.returned cs n = some v ∧ v.milliseconds = p.milliseconds ∧ p.rank < v.rank ∧
      ∀ i < n, ∀ u, k.returned cs i = some u → u.rank < v.rank := by
  obtain ⟨x, hx, hleft, -⟩ := exists_stands hk hcs hpos hw (Nat.le_of_lt hn)
  have hroom : x.room w ≠ 0 := by omega
  obtain ⟨v, hv⟩ := Option.ne_none_iff_exists'.1 (mt (hx.returned_eq_none_iff (hcs n) hpos).1 hroom)
  obtain ⟨hlt, hnext⟩ := hx.next hv (hcs n)
  exact ⟨v, hv, hnext.milliseconds, Int.lt_of_le_of_lt hx.rank hlt,
    fun i hi u hu => Int.lt_of_le_of_lt (hx.before i hi u hu) hlt⟩

/-- At the end of its room a counter is exhausted, if every clock step is worth the same. -/
theorem returned_room (hsame : ∀ n, (cs n).worth = w) : k.returned cs (p.room w) = none := by
  obtain ⟨x, hx, -, hexact⟩ := exists_stands hk hcs hpos hw (Nat.le_refl _)
  have hlast := hexact hsame
  exact (hx.returned_eq_none_iff (hcs _) hpos).2 (by omega)

end Runs

/-- **How long a counter lasts.** Let a counter hold a value, and let it be given candidates that
are neither later nor more than ten seconds back, with any seeds. The first calls succeed, as many
as the sequence has left and 8193 for every clock step that is left; their values ascend and keep
the millisecond. If all seeds are the same, the counter is exhausted after exactly as many calls as
the sequence has left and each further clock step has from the seed on. -/
theorem returns_until_exhausted (k : Counter) (cs : ℕ → Candidate) (p : CounterValue)
    (hk : k.last = some p) (hcs : ∀ n, (cs n).Behind p) :
    (∀ n < (0x3fff - p.sequence.toNat) + (0xfff - p.clock.toNat) * 8193,
      ∃ v, k.returned cs n = some v ∧ v.milliseconds = p.milliseconds ∧ p.rank < v.rank ∧
        ∀ i < n, ∀ u, k.returned cs i = some u → u.rank < v.rank) ∧
      ∀ q : BitVec 16, (∀ n, (cs n).seed = q) →
        (∀ n < (0x3fff - p.sequence.toNat) +
            (0xfff - p.clock.toNat) * (0x4000 - (q &&& 0x1fff).toNat),
          ∃ v, k.returned cs n = some v) ∧
        k.returned cs ((0x3fff - p.sequence.toNat) +
          (0xfff - p.clock.toNat) * (0x4000 - (q &&& 0x1fff).toNat)) = none := by
  refine ⟨fun n hn => ?_, fun q hq => ?_⟩
  · exact exists_returned hk hcs (by decide) (fun n => (cs n).worth_eq.2) hn
  · have hsame : ∀ n, (cs n).worth = 0x4000 - (q &&& 0x1fff).toNat := by
      intro n
      rw [Candidate.worth, hq n]
    have hpos : 0 < 0x4000 - (q &&& 0x1fff).toNat := by
      rw [← hsame 0]
      exact Nat.lt_of_lt_of_le (by decide) (cs 0).worth_eq.2
    have hw : ∀ n, 0x4000 - (q &&& 0x1fff).toNat ≤ (cs n).worth :=
      fun n => Nat.le_of_eq (hsame n).symm
    refine ⟨fun n hn => ?_, returned_room hk hcs hpos hw hsame⟩
    obtain ⟨v, hv, -⟩ := exists_returned hk hcs hpos hw hn
    exact ⟨v, hv⟩

/-- A candidate of a clock ten seconds back, with the largest seed. -/
def stale : Candidate := ⟨10000, 0xffff, 0xffff⟩

/-- A counter before its last clock step lasts for the 8193 values that a step from the largest seed
has. -/
theorem returns_until_exhausted_stale :
    stale.Behind ⟨20000, 0xffe, 0x3fff⟩ ∧
      (∃ v, returned ⟨some ⟨20000, 0xffe, 0x3fff⟩⟩ (fun _ => stale) 8192 = some v ∧
        v.milliseconds = 20000) ∧
      returned ⟨some ⟨20000, 0xffe, 0x3fff⟩⟩ (fun _ => stale) 8193 = none := by
  have hbehind : stale.Behind ⟨20000, 0xffe, 0x3fff⟩ := ⟨by decide, by decide⟩
  obtain ⟨hreturns, hexhausted⟩ :=
    returns_until_exhausted ⟨some ⟨20000, 0xffe, 0x3fff⟩⟩ (fun _ => stale) _ rfl fun _ => hbehind
  obtain ⟨v, hv, hms, -⟩ := hreturns 8192 (by decide)
  exact ⟨hbehind, ⟨v, hv, hms⟩, (hexhausted 0xffff fun _ => rfl).2⟩

end Counter

end UuidForge
