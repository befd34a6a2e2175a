import Mathlib.Data.Int.Notation
import UuidForge.Time.Ticks

/-!
# Checked arithmetic on ticks

The arithmetic of ticks wraps. A checked operation gives up where the exact result does not fit in a
word, and is the wrapping one everywhere else. So a computation made of checked operations succeeds
exactly if none of its steps overflows.

* `Succeeds`: a checked computation succeeds exactly under a condition, with a given result; closed
  under sequencing and case distinction.
* `Ticks.Fits`: a word can hold a number.
* `Ticks.succeeds_add?` and its like: **a checked operation is the wrapping one, where the exact
  result fits.**
* `Ticks.succeeds_ofInstant?`: instants become ticks without an overflow.
-/

namespace UuidForge

/-! ## Checked computations -/

/-- **A computation succeeds exactly under a condition**, and then with a given result. -/
def Succeeds {α : Type} (x : Option α) (ok : Prop) (a : α) : Prop :=
  ∀ b, x = some b ↔ ok ∧ b = a

namespace Succeeds

variable {α β : Type} {x y : Option α} {P Q : Prop} {a a' : α} {b : β}

theorem some (a : α) : Succeeds (Option.some a) True a := by
  intro b
  rw [Option.some.injEq, true_and, eq_comm]

theorem congr (h : Succeeds x P a) (hpq : P ↔ Q) : Succeeds x Q a := by
  intro b
  rw [h b, hpq]

theorem eq_some (h : Succeeds x P a) (hp : P) : x = Option.some a := (h a).2 ⟨hp, rfl⟩

theorem eq_none (h : Succeeds x P a) (hp : ¬ P) : x = none :=
  Option.eq_none_iff_forall_ne_some.2 fun b hb => hp ((h b).1 hb).1

/-- **A sequence succeeds** if its first step does and then its second. -/
theorem bind {f : α → Option β} (h : Succeeds x P a) (hf : P → Succeeds (f a) Q b) :
    Succeeds (x.bind f) (P ∧ Q) b := by
  intro c
  rw [Option.bind_eq_some_iff]
  constructor
  · rintro ⟨a', hx, hc⟩
    obtain ⟨hp, rfl⟩ := (h a').1 hx
    obtain ⟨hq, rfl⟩ := (hf hp c).1 hc
    exact ⟨⟨hp, hq⟩, rfl⟩
  · rintro ⟨⟨hp, hq⟩, rfl⟩
    exact ⟨a, h.eq_some hp, (hf hp).eq_some hq⟩

/-- A step that cannot fail adds no condition. -/
theorem andThen {f : α → Option β} (h : Succeeds x P a) (hf : P → f a = Option.some b) :
    Succeeds (x.bind f) P b := by
  have hbind : Succeeds (x.bind f) (P ∧ True) b := by
    refine h.bind fun hp => ?_
    rw [hf hp]
    exact some b
  exact hbind.congr ((and_true P).to_iff)

theorem map (f : α → β) (h : Succeeds x P a) : Succeeds (x.map f) P (f a) := by
  rw [Option.map_eq_bind]
  exact h.andThen fun _ => rfl

theorem ite {c : Prop} [Decidable c] (ht : c → Succeeds x P a) (he : ¬ c → Succeeds y Q a') :
    Succeeds (if c then x else y) ((c → P) ∧ (¬ c → Q)) (if c then a else a') := by
  by_cases hc : c
  · rw [if_pos hc, if_pos hc]
    exact (ht hc).congr ⟨fun hp => ⟨fun _ => hp, absurd hc⟩, fun h => h.1 hc⟩
  · rw [if_neg hc, if_neg hc]
    exact (he hc).congr ⟨fun hq => ⟨fun h => absurd h hc, fun _ => hq⟩, fun h => h.2 hc⟩

end Succeeds

/-! ## Words -/

namespace Ticks

variable {a b c t : Ticks} {n : ℤ}

/-- A word of 64 bits can hold a number. -/
def Fits (n : ℤ) : Prop := -9223372036854775808 ≤ n ∧ n ≤ 9223372036854775807

instance (n : ℤ) : Decidable (Fits n) := inferInstanceAs (Decidable (_ ∧ _))

/-- The tick count of a number that fits. -/
def ofInt? (n : ℤ) : Option Ticks := if Fits n then some (Int64.ofInt n) else none

/-- The sum, if it fits. -/
def add? (a b : Ticks) : Option Ticks := ofInt? (a.toInt + b.toInt)

/-- The difference, if it fits. -/
def sub? (a b : Ticks) : Option Ticks := ofInt? (a.toInt - b.toInt)

/-- The product, if it fits. -/
def mul? (a b : Ticks) : Option Ticks := ofInt? (a.toInt * b.toInt)

/-- The negative, if it fits. -/
def neg? (a : Ticks) : Option Ticks := ofInt? (-a.toInt)

/-- The distance from zero, if it fits. -/
def abs? (a : Ticks) : Option Ticks := ofInt? a.toInt.natAbs

theorem fits_toInt (t : Ticks) : Fits t.toInt := by
  have hlo := t.le_toInt
  have hhi := t.toInt_lt
  unfold Fits
  omega

/-- A number fits if its distance from zero does. -/
theorem fits_of_natAbs (h : Fits n.natAbs) : Fits n := by
  unfold Fits at h ⊢
  omega

theorem toInt_ofInt (h : Fits n) : (Int64.ofInt n).toInt = n := by
  unfold Fits at h
  exact Int64.toInt_ofInt_of_le (by omega) (by omega)

/-- **A number that fits is a tick count.** -/
theorem ofInt?_eq_some_iff : ofInt? n = some t ↔ t.toInt = n := by
  unfold ofInt?
  constructor
  · intro h
    split at h
    · rename_i hn
      cases h
      exact toInt_ofInt hn
    · cases h
  · rintro rfl
    rw [if_pos t.fits_toInt, Int64.ofInt_toInt]

theorem ofInt?_of_fits (h : Fits n) : ofInt? n = some (Int64.ofInt n) := if_pos h

/-! ## Operations -/

theorem toInt_add (h : Fits (a.toInt + b.toInt)) : (a + b).toInt = a.toInt + b.toInt := by
  rw [← toInt_ofInt h, Int64.ofInt_add, Int64.ofInt_toInt, Int64.ofInt_toInt]

theorem toInt_sub (h : Fits (a.toInt - b.toInt)) : (a - b).toInt = a.toInt - b.toInt := by
  rw [← toInt_ofInt h, Int64.ofInt_sub, Int64.ofInt_toInt, Int64.ofInt_toInt]

/-- **A difference that does not fit wraps around once.** -/
theorem toInt_sub_of_not_fits (h : ¬ Fits (a.toInt - b.toInt)) :
    (a.toInt - b.toInt < 0 ∧ (a - b).toInt = a.toInt - b.toInt + 18446744073709551616) ∨
      (0 < a.toInt - b.toInt ∧ (a - b).toInt = a.toInt - b.toInt - 18446744073709551616) := by
  have ha := a.fits_toInt
  have hb := b.fits_toInt
  unfold Fits at h ha hb
  rw [Int64.toInt_sub]
  by_cases hneg : a.toInt - b.toInt < 0
  · rw [← Int.add_bmod_right, Int.bmod_eq_of_le (by omega) (by omega)]
    omega
  · rw [← Int.sub_bmod_right, Int.bmod_eq_of_le (by omega) (by omega)]
    omega

theorem toInt_mul (h : Fits (a.toInt * b.toInt)) : (a * b).toInt = a.toInt * b.toInt := by
  rw [← toInt_ofInt h, Int64.ofInt_mul, Int64.ofInt_toInt, Int64.ofInt_toInt]

theorem toInt_neg (h : Fits (-a.toInt)) : (-a).toInt = -a.toInt := by
  rw [← toInt_ofInt h, Int64.ofInt_neg, Int64.ofInt_toInt]

theorem abs_eq (a : Ticks) : a.abs = if a.toInt < 0 then -a else a := by
  refine Int64.toBitVec_inj.1 ?_
  have hmsb : a.toBitVec.msb = decide (a.toInt < 0) := BitVec.msb_eq_toInt
  rw [Int64.toBitVec_abs, BitVec.abs, hmsb]
  by_cases hneg : a.toInt < 0
  · rw [if_pos (decide_eq_true hneg), if_pos hneg, Int64.toBitVec_neg]
    rfl
  · rw [if_neg (by simpa using hneg), if_neg hneg]

theorem toInt_abs (h : Fits a.toInt.natAbs) : a.abs.toInt = a.toInt.natAbs := by
  rw [abs_eq]
  by_cases hneg : a.toInt < 0
  · have habs : (a.toInt.natAbs : ℤ) = -a.toInt := by omega
    rw [habs] at h ⊢
    rw [if_pos hneg, toInt_neg h]
  · rw [if_neg hneg]
    omega

/-- What is computed exactly wherever it fits is checked by its exact result. -/
theorem succeeds_of_toInt {f : Ticks} (hf : Fits n → f.toInt = n) :
    Succeeds (ofInt? n) (Fits n) f := by
  intro c
  rw [ofInt?_eq_some_iff]
  constructor
  · rintro rfl
    exact ⟨c.fits_toInt, Int64.toInt_inj.1 (hf c.fits_toInt).symm⟩
  · rintro ⟨hn, rfl⟩
    exact hf hn

/-- **A checked sum is the wrapping one**, where the exact sum fits. -/
theorem succeeds_add? (a b : Ticks) : Succeeds (a.add? b) (Fits (a.toInt + b.toInt)) (a + b) :=
  succeeds_of_toInt toInt_add

theorem succeeds_sub? (a b : Ticks) : Succeeds (a.sub? b) (Fits (a.toInt - b.toInt)) (a - b) :=
  succeeds_of_toInt toInt_sub

theorem succeeds_mul? (a b : Ticks) : Succeeds (a.mul? b) (Fits (a.toInt * b.toInt)) (a * b) :=
  succeeds_of_toInt toInt_mul

theorem succeeds_neg? (a : Ticks) : Succeeds a.neg? (Fits (-a.toInt)) (-a) :=
  succeeds_of_toInt toInt_neg

theorem succeeds_abs? (a : Ticks) : Succeeds a.abs? (Fits a.toInt.natAbs) a.abs :=
  succeeds_of_toInt toInt_abs

/-! ## Instants -/

theorem toInt_ofSpan (s : Span) :
    (ofSpan s).toInt = Nat.min (s / 100) 9223372036854775807 := by
  have hle : Nat.min (s / 100) 9223372036854775807 ≤ 9223372036854775807 := Nat.min_le_right _ _
  exact Int64.toInt_ofNat_of_lt (by omega)

/-- A span is told without an overflow, and so is the instant that lies as far before 1970. -/
theorem ofSpan_bounds (s : Span) : 0 ≤ (ofSpan s).toInt ∧ Fits (-(ofSpan s).toInt) := by
  have hle : Nat.min (s / 100) 9223372036854775807 ≤ 9223372036854775807 := Nat.min_le_right _ _
  rw [toInt_ofSpan]
  unfold Fits
  omega

/-- A longer span has no fewer ticks. -/
theorem ofSpan_mono {r s : Span} (h : r ≤ s) : (ofSpan r).toInt ≤ (ofSpan s).toInt := by
  have hdiv : r / 100 ≤ s / 100 := Nat.div_le_div_right h
  have hmin : Nat.min (r / 100) 9223372036854775807 ≤ Nat.min (s / 100) 9223372036854775807 :=
    Nat.le_min.2 ⟨Nat.le_trans (Nat.min_le_left _ _) hdiv, Nat.min_le_right _ _⟩
  rw [toInt_ofSpan, toInt_ofSpan]
  exact Int.ofNat_le.2 hmin

/-- A later instant has no fewer ticks. -/
theorem ofInstant_mono {s t : ℤ} (h : s ≤ t) : (ofInstant s).toInt ≤ (ofInstant t).toInt := by
  obtain ⟨hbefore, hneg⟩ := ofSpan_bounds (-s).toNat
  unfold ofInstant
  by_cases hs : 0 ≤ s
  · have ht : 0 ≤ t := Int.le_trans hs h
    rw [if_pos hs, if_pos ht]
    exact ofSpan_mono (Int.toNat_le_toNat h)
  · rw [if_neg hs, toInt_neg hneg]
    by_cases ht : 0 ≤ t
    · have hafter := (ofSpan_bounds t.toNat).1
      rw [if_pos ht]
      omega
    · rw [if_neg ht, toInt_neg (ofSpan_bounds _).2]
      exact Int.neg_le_neg (ofSpan_mono (Int.toNat_le_toNat (Int.neg_le_neg h)))

/-- The ticks of an instant, if their negation does not overflow. -/
def ofInstant? (t : Instant) : Option Ticks :=
  if 0 ≤ t then some (ofSpan t.toNat) else (ofSpan (-t).toNat).neg?

/-- **Instants become ticks without an overflow.** -/
theorem succeeds_ofInstant? (t : Instant) : Succeeds (ofInstant? t) True (ofInstant t) := by
  unfold ofInstant? ofInstant
  by_cases ht : 0 ≤ t
  · rw [if_pos ht, if_pos ht]
    exact .some _
  · obtain ⟨-, hneg⟩ := ofSpan_bounds (-t).toNat
    rw [if_neg ht, if_neg ht]
    exact (succeeds_neg? _).congr (iff_true_intro hneg)

/-- The parts that a point of time has as text, with checked arithmetic: whole seconds, and the
nanoseconds after them. -/
def parts? (t : Ticks) : Option (Ticks × Ticks) := do
  let seconds ← ofInt? (t.toInt / 10000000)
  let fraction ← ofInt? (t.toInt % 10000000)
  let nanoseconds ← fraction.mul? 100
  return (seconds, nanoseconds)

end Ticks

end UuidForge
