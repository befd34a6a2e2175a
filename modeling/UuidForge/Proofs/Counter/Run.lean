import Mathlib.Data.Nat.Init
import UuidForge.Proofs.Counter.Order

/-!
# Runs of a counter

A run gives a counter one candidate after the other. Clones of a counter share what it remembers, so
a run holds the calls of all of them in the order in which they come.

* `Counter.after`, `Counter.returned`: the counter in a run, and what it returns.
* `CounterValue.follows_of_after`: a value is not earlier than the reading, and at most ten seconds
  ahead of it.
* `Counter.exists_presented`: **a new counter only ever holds milliseconds that were presented.**
* `Counter.follows_of_returned`: **what is returned follows the candidate.**
-/

namespace UuidForge

open Ticks (Fits)

/-- **A value follows a reading**: it is not earlier, and at most ten seconds ahead. -/
theorem CounterValue.follows_of_after {p v x : CounterValue}
    (h : Fits (p.milliseconds.toInt - v.milliseconds.toInt)) (hx : p.after v = some x) :
    x.SameOrLater v ∧ x.milliseconds.toInt ≤ v.milliseconds.toInt + 10000 := by
  rw [after_eq h] at hx
  split at hx
  · rename_i hkept
    obtain ⟨hlater, hback⟩ := hkept
    obtain ⟨hlt, hms⟩ := rank_lt_of_raised hx
    rw [rank_lt_iff] at hlt
    rw [sameOrLater_iff] at hlater ⊢
    rw [hms] at hlt ⊢
    exact ⟨by omega, by omega⟩
  · cases hx
    exact ⟨Or.inr ⟨rfl, BitVec.le_refl _⟩, by omega⟩

namespace Counter

/-- The counter after the first `n` candidates of a run. -/
def after (k : Counter) (cs : ℕ → Candidate) : ℕ → Counter
  | 0 => k
  | n + 1 => ((k.after cs n).next (cs n)).2

/-- What the counter returns for candidate `n` of a run. -/
def returned (k : Counter) (cs : ℕ → Candidate) (n : ℕ) : Option CounterValue :=
  ((k.after cs n).next (cs n)).1

variable {k : Counter} {cs : ℕ → Candidate} {n : ℕ} {v : CounterValue}

theorem last_after_of_returned (h : k.returned cs n = some v) :
    (k.after cs (n + 1)).last = some v := by
  have hv : (k.after cs n).value? (cs n) = some v := h
  rw [after, next, hv]
  rfl

theorem after_of_returned_none (h : k.returned cs n = none) : k.after cs (n + 1) = k.after cs n :=
  next_of_value?_eq_none h

/-- **A new counter only ever holds milliseconds that were presented.** -/
theorem exists_presented (h : (after {} cs n).last = some v) :
    ∃ i < n, v.milliseconds = (cs i).milliseconds := by
  induction n generalizing v with
  | zero => cases h
  | succ n ih =>
    cases hr : returned {} cs n with
    | none =>
      rw [after_of_returned_none hr] at h
      obtain ⟨i, hi, hms⟩ := ih h
      exact ⟨i, Nat.lt_succ_of_lt hi, hms⟩
    | some x =>
      rw [last_after_of_returned hr] at h
      cases h
      have hv : (after {} cs n).value? (cs n) = some v := hr
      unfold value? at hv
      split at hv
      · rename_i p hp
        -- milliseconds are kept or adopted
        rcases CounterValue.milliseconds_of_after hv with hms | hms
        · obtain ⟨i, hi, hpi⟩ := ih hp
          exact ⟨i, Nat.lt_succ_of_lt hi, hms.trans hpi⟩
        · exact ⟨n, Nat.lt_succ_self n, hms⟩
      · cases hv
        exact ⟨n, Nat.lt_succ_self n, rfl⟩

/-- **What is returned follows the candidate**, as long as differences of milliseconds fit. -/
theorem follows_of_returned (h : returned {} cs n = some v)
    (hfits : ∀ i < n, Fits ((cs i).milliseconds.toInt - (cs n).milliseconds.toInt)) :
    v.SameOrLater (cs n).adopted ∧
      v.milliseconds.toInt ≤ (cs n).milliseconds.toInt + 10000 := by
  have hv : (after {} cs n).value? (cs n) = some v := h
  unfold value? at hv
  split at hv
  · rename_i p hp
    obtain ⟨i, hi, hms⟩ := exists_presented hp
    have hp : Fits (p.milliseconds.toInt - (cs n).adopted.milliseconds.toInt) := by
      rw [hms]
      exact hfits i hi
    exact CounterValue.follows_of_after hp hv
  · cases hv
    exact ⟨Or.inr ⟨rfl, BitVec.le_refl _⟩, Int.le_add_of_nonneg_right (by decide)⟩

end Counter

end UuidForge
