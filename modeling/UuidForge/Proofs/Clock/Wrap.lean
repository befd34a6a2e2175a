import UuidForge.Proofs.Clock.Trail

/-!
# Wraps of the clock sequence

Between two pairs of timestamp and clock sequence the sequence may wrap from its last value to zero.
As long as it does not, it counts the increments, so later pairs of a clock that does not run
backwards are larger.

* `Trail.toNat_sequence`: without a wrap, the sequence is ahead by the increments as a number.
* `Trail.ascends_or_wrapped`: **a later pair with no earlier timestamp is larger**, unless the
  timestamps are the same and the sequence wrapped in between.
-/

namespace UuidForge.Trail

variable {T : Trail} {i j n : ℕ} {p q : Stamped}

/-- One of the events after `i` up to `j` took the sequence from its last value to zero. -/
def Wrapped (T : Trail) (i j : ℕ) : Prop :=
  ∃ m, i < m ∧ m ≤ j ∧ (T.clock m).sequence = 0x3fff ∧ (T.clock (m + 1)).sequence = 0

/-- All timestamps that the events from `i` to `j` handed out are the same. -/
def StoodStill (T : Trail) (i j : ℕ) : Prop :=
  ∃ t, ∀ m, i ≤ m → m ≤ j → ∀ q, T.handed m = some q → q.1 = t

/-- Timestamps are never handed out in descending order. -/
def NeverBack (T : Trail) : Prop :=
  ∀ m n, m ≤ n → ∀ p q, T.handed m = some p → T.handed n = some q → p.1 ≤ q.1

/-- An increment adds one to the number, or it wraps. -/
theorem toNat_sequence_succ (h : T.Regular n)
    (hw : ¬ ((T.clock n).sequence = 0x3fff ∧ (T.clock (n + 1)).sequence = 0)) :
    (T.clock (n + 1)).sequence.toNat =
      (T.clock n).sequence.toNat + if T.Incremented n then 1 else 0 := by
  have hs := sequence_succ h
  by_cases hi : T.Incremented n
  · rw [if_pos hi] at hs ⊢
    have hne : (T.clock n).sequence ≠ 0x3fff := by
      intro hlast
      rw [hlast] at hs
      exact hw ⟨hlast, hs⟩
    have hne' : (T.clock n).sequence.toNat ≠ 0x3fff := fun he => hne (BitVec.eq_of_toNat_eq he)
    have hlt := (T.clock n).sequence.isLt
    have hroom : (T.clock n).sequence.toNat + 1 < 2 ^ 14 := by omega
    rw [hs, BitVec.toNat_add]
    exact Nat.mod_eq_of_lt hroom
  · rw [if_neg hi] at hs ⊢
    rw [hs, BitVec.add_zero, Nat.add_zero]

/-- **Without a wrap the sequence counts the increments.** -/
theorem toNat_sequence (hr : ∀ n, i ≤ n → n ≤ j → T.Regular n) (hij : i ≤ j)
    (hp : T.handed i = some p) (hw : ¬ T.Wrapped i j) :
    (T.clock (j + 1)).sequence.toNat = p.2.toNat + T.increments i j := by
  induction j, hij using Nat.le_induction with
  | base =>
    have hh := (regular_of_handed (hr i le_rfl le_rfl) hp).eq
    rw [hh.2, increments_self, Nat.add_zero]
  | succ j hij ih =>
    have hbefore : ¬ T.Wrapped i j := by
      rintro ⟨m, h1, h2, h3⟩
      exact hw ⟨m, h1, by omega, h3⟩
    have hhere : ¬ ((T.clock (j + 1)).sequence = 0x3fff ∧ (T.clock (j + 2)).sequence = 0) :=
      fun h => hw ⟨j + 1, by omega, le_rfl, h⟩
    have hseq := ih (fun n h1 h2 => hr n h1 (by omega)) hbefore
    rw [toNat_sequence_succ (hr (j + 1) (by omega) le_rfl) hhere, hseq, increments_succ hij,
      Nat.add_assoc]

/-- **Later pairs are larger**, unless the time is the same and the sequence wrapped. -/
theorem ascends_or_wrapped (hr : ∀ n, i ≤ n → n ≤ j → T.Regular n) (hij : i < j)
    (hi : T.handed i = some p) (hj : T.handed j = some q) (hle : p.1 ≤ q.1) :
    p.1 < q.1 ∨ p.1 = q.1 ∧ (p.2 < q.2 ∨ T.Wrapped i j) := by
  rcases Int64.lt_or_eq_of_le hle with hlt | heq
  · exact Or.inl hlt
  refine Or.inr ⟨heq, ?_⟩
  by_cases hw : T.Wrapped i j
  · exact Or.inr hw
  -- the time did not advance, so the sequence did
  have hpos : T.increments i j ≠ 0 := by
    intro h0
    have hlt := lt_of_increments_eq_zero hr hij hi hj h0
    rw [heq] at hlt
    exact Int64.lt_irrefl hlt
  have hseq := toNat_sequence hr hij.le hi hw
  rw [(regular_of_handed (hr j hij.le le_rfl) hj).eq.2] at hseq
  refine Or.inl (BitVec.lt_def.2 ?_)
  omega

/-- Between two pairs with the same time, a clock that never goes back stands still. -/
theorem stoodStill_of_eq (hb : T.NeverBack) (hi : T.handed i = some p) (hj : T.handed j = some q)
    (h : p.1 = q.1) : T.StoodStill i j := by
  refine ⟨p.1, fun m him hmj r hr => ?_⟩
  have hlo := hb i m him p r hi hr
  have hhi := hb m j hmj r q hr hj
  rw [← h] at hhi
  exact Int64.le_antisymm hhi hlo

end UuidForge.Trail
