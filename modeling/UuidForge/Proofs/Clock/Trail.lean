import Mathlib.Data.Finset.Card
import Mathlib.Order.Interval.Finset.Nat
import UuidForge.State.Clock

/-!
# Trails of a clock domain

A `Trail` is what one clock domain went through: its clock state before each event, and the pair of
timestamp and clock sequence that an event handed out, if any. An event is `Regular` if what it
handed out came from `ClockState.refresh`, or if it handed out nothing, left the sequence alone and
did not set the last timestamp back.

* `regular_cases`: what a regular event does to the sequence, as a number modulo `2 ^ 14`.
* `Trail.after_handed`: after a pair was handed out, the sequence is ahead by the increments since,
  and without increments the timestamps have only grown.
* `Trail.wrapped_of_repeated`: **a pair is handed out twice only if the increments between are a
  positive multiple of 16384.**
-/

namespace UuidForge

/-- A point of time and a clock sequence. -/
abbrev Stamped := Ticks × ClockSequence

/-- The number of clock sequences. -/
def sequenceCount : ℕ := 16384

namespace ClockState

variable {c c' : ClockState} {p : Stamped}

/-- A refresh with some node id hands out `p` and leads from `c` to `c'`. -/
def Hands (c : ClockState) (p : Stamped) (c' : ClockState) : Prop :=
  ∃ node, (c.refresh p.1 node).1.sequence = p.2 ∧ (c.refresh p.1 node).2 = c'

/-- The sequence is kept and the last timestamp is not set back. -/
structure Kept (c c' : ClockState) : Prop where
  sequence : c'.sequence = c.sequence
  last : c.last ≤ c'.last

theorem Kept.refl (c : ClockState) : c.Kept c := ⟨rfl, Int64.le_refl _⟩

theorem Hands.eq (h : c.Hands p c') : c'.last = p.1 ∧ c'.sequence = p.2 := by
  obtain ⟨node, hs, rfl⟩ := h
  exact ⟨rfl, hs⟩

/-- **A refresh increments the sequence, or the timestamp has grown.** -/
theorem Hands.cases (h : c.Hands p c') :
    p.2 = c.sequence + 1 ∨ p.2 = c.sequence ∧ c.last < p.1 := by
  obtain ⟨node, hs, -⟩ := h
  rw [sequence_refresh] at hs
  split at hs
  · exact Or.inl hs.symm
  · rename_i hdue
    refine Or.inr ⟨hs.symm, ?_⟩
    unfold incrementDue at hdue
    simp only [Bool.or_eq_true, decide_eq_true_eq, not_or] at hdue
    exact Int64.not_le.1 hdue.1

end ClockState

/-- A run of events on one clock domain. -/
structure Trail where
  /-- The clock state before each event. -/
  clock : ℕ → ClockState
  /-- What an event handed out. -/
  handed : ℕ → Option Stamped

namespace Trail

variable (T : Trail)

/-- An event is a refresh, or does not touch what was handed out. -/
def Regular (n : ℕ) : Prop :=
  match T.handed n with
  | some p => (T.clock n).Hands p (T.clock (n + 1))
  | none => (T.clock n).Kept (T.clock (n + 1))

/-- An event handed out a sequence other than the one before. -/
def Incremented (n : ℕ) : Prop :=
  (T.handed n).isSome ∧ (T.clock (n + 1)).sequence ≠ (T.clock n).sequence

instance (n : ℕ) : Decidable (T.Incremented n) := inferInstanceAs (Decidable (_ ∧ _))

/-- **The increments made by the events after `i` up to `j`.** -/
def increments (i j : ℕ) : ℕ := ((Finset.Ioc i j).filter T.Incremented).card

variable {T} {i j n : ℕ} {p q : Stamped}

theorem regular_of_handed (h : T.Regular n) (hp : T.handed n = some p) :
    (T.clock n).Hands p (T.clock (n + 1)) := by
  rwa [Regular, hp] at h

theorem regular_of_none (h : T.Regular n) (hp : T.handed n = none) :
    (T.clock n).Kept (T.clock (n + 1)) := by
  rwa [Regular, hp] at h

theorem increments_self : T.increments i i = 0 := by simp [increments]

theorem increments_le : T.increments i j ≤ j - i :=
  (Finset.card_filter_le _ _).trans_eq (Nat.card_Ioc i j)

theorem increments_eq_zero (h : ∀ n, i < n → n ≤ j → ¬ T.Incremented n) : T.increments i j = 0 := by
  rw [increments, Finset.card_eq_zero, Finset.filter_eq_empty_iff]
  intro n hn
  exact h n (Finset.mem_Ioc.1 hn).1 (Finset.mem_Ioc.1 hn).2

theorem increments_succ (h : i ≤ j) :
    T.increments i (j + 1) = T.increments i j + if T.Incremented (j + 1) then 1 else 0 := by
  have hi : Finset.Ioc i (j + 1) = insert (j + 1) (Finset.Ioc i j) := by
    ext x
    simp only [Finset.mem_Ioc, Finset.mem_insert]
    omega
  rw [increments, hi, Finset.filter_insert]
  split
  · rw [Finset.card_insert_of_notMem (by simp)]
    rfl
  · rfl

/-- **What a regular event does to the sequence.** -/
theorem sequence_succ (h : T.Regular n) :
    (T.clock (n + 1)).sequence =
      (T.clock n).sequence + BitVec.ofNat 14 (if T.Incremented n then 1 else 0) := by
  cases hp : T.handed n with
  | none =>
    have hn : ¬ T.Incremented n := fun hi => by simp [Incremented, hp] at hi
    simp [hn, (regular_of_none h hp).sequence]
  | some p =>
    have hh := regular_of_handed h hp
    rcases hh.cases with hs | ⟨hs, -⟩
    · have hi : T.Incremented n := ⟨by rw [hp]; rfl, by rw [hh.eq.2, hs]; simp⟩
      rw [if_pos hi, hh.eq.2, hs]
      rfl
    · have hn : ¬ T.Incremented n := fun hi => hi.2 (by rw [hh.eq.2, hs])
      simp [hn, hh.eq.2, hs]

/-- Without an increment the last timestamp has not been set back, and has grown if a pair was
handed out. -/
theorem last_succ (h : T.Regular n) (hn : ¬ T.Incremented n) :
    (T.clock n).last ≤ (T.clock (n + 1)).last ∧
      ∀ q, T.handed n = some q → (T.clock n).last < q.1 := by
  cases hp : T.handed n with
  | none => exact ⟨(regular_of_none h hp).last, by simp⟩
  | some p =>
    have hh := regular_of_handed h hp
    have hlt : (T.clock n).last < p.1 := by
      rcases hh.cases with hs | ⟨-, hlt⟩
      · -- an incremented sequence differs from the one before
        refine absurd ⟨by rw [hp]; rfl, ?_⟩ hn
        rw [hh.eq.2, hs]
        simp
      · exact hlt
    rw [hh.eq.1]
    refine ⟨Int64.le_of_lt hlt, fun q hq => ?_⟩
    cases hq
    exact hlt

/-- **After a pair was handed out**, the sequence is ahead by the increments since; while there are
none, the last timestamp is at least the one handed out. -/
theorem after_handed (hr : ∀ n, i ≤ n → n ≤ j → T.Regular n) (hij : i ≤ j)
    (hp : T.handed i = some p) :
    (T.clock (j + 1)).sequence = p.2 + BitVec.ofNat 14 (T.increments i j) ∧
      (T.increments i j = 0 → p.1 ≤ (T.clock (j + 1)).last) := by
  -- the sequence is carried along as a number modulo `2 ^ 14`
  induction j, hij using Nat.le_induction with
  | base =>
    have hh := (regular_of_handed (hr i le_rfl le_rfl) hp).eq
    rw [increments_self, hh.1, hh.2]
    exact ⟨by simp, fun _ => Int64.le_refl _⟩
  | succ j hij ih =>
    obtain ⟨hs, hl⟩ := ih fun n h1 h2 => hr n h1 (by omega)
    have hreg := hr (j + 1) (by omega) le_rfl
    rw [increments_succ hij, sequence_succ hreg, hs, BitVec.ofNat_add, BitVec.add_assoc]
    refine ⟨rfl, fun h0 => ?_⟩
    have hn : ¬ T.Incremented (j + 1) := fun h => by simp [h] at h0
    exact Int64.le_trans (hl (by omega)) (last_succ hreg hn).1

/-- Without an increment between them, the second timestamp is later than the first. -/
theorem lt_of_increments_eq_zero (hr : ∀ n, i ≤ n → n ≤ j → T.Regular n) (hij : i < j)
    (hi : T.handed i = some p) (hj : T.handed j = some q) (h0 : T.increments i j = 0) :
    p.1 < q.1 := by
  obtain ⟨k, rfl⟩ : ∃ k, j = k + 1 := ⟨j - 1, by omega⟩
  rw [increments_succ (by omega)] at h0
  have hn : ¬ T.Incremented (k + 1) := fun h => by simp [h] at h0
  have h1 := (after_handed (fun n a b => hr n a (by omega)) (by omega : i ≤ k) hi).2 (by omega)
  have h2 := (last_succ (hr (k + 1) hij.le le_rfl) hn).2 q hj
  exact Int64.lt_of_le_of_lt h1 h2

/-- **A pair is handed out twice only after the sequence went all the way round.** -/
theorem wrapped_of_repeated (hr : ∀ n, i ≤ n → n ≤ j → T.Regular n) (hij : i < j)
    (hi : T.handed i = some p) (hj : T.handed j = some p) :
    0 < T.increments i j ∧ sequenceCount ∣ T.increments i j := by
  have hs := (after_handed hr hij.le hi).1
  rw [(regular_of_handed (hr j hij.le le_rfl) hj).eq.2] at hs
  -- both times the sequence is the same, so the increments vanish modulo `2 ^ 14`
  have hdvd : sequenceCount ∣ T.increments i j := by
    have h0 : BitVec.ofNat 14 (T.increments i j) = 0 := by
      rw [BitVec.add_comm] at hs
      simpa [BitVec.add_sub_cancel] using (congrArg (· - p.2) hs).symm
    have := congrArg BitVec.toNat h0
    simp only [BitVec.toNat_ofNat, BitVec.ofNat_eq_ofNat, Nat.zero_mod] at this
    exact Nat.dvd_of_mod_eq_zero this
  exact ⟨Nat.pos_of_ne_zero fun h0 =>
    Int64.lt_irrefl (lt_of_increments_eq_zero hr hij hi hj h0), hdvd⟩

end Trail

end UuidForge
