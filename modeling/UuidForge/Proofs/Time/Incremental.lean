import Mathlib.Data.Nat.Init
import UuidForge.Proofs.Time.Checked
import UuidForge.Time.Clock

/-!
# Repeated readings

An incremental clock adds a tick for every reading that repeats the one before, and forgets these
ticks as soon as the wall clock moves. So the clock runs ahead of a wall clock that stands still,
and may fall back when that one moves again.

* `IncrementalClock.toInt_shown`: the clock shows the wall clock and the repeats.
* `IncrementalClock.exists_total_eq`: while the wall clock stands still, the clock shows every tick
  on its way.
* `IncrementalClock.ascends_iff`: **the readings ascend, and none is repeated, exactly if every move
  of the wall clock takes it beyond what was shown.**
-/

namespace UuidForge

namespace IncrementalClock

open Ticks (Fits)

/-- A fresh clock after its first `n` readings of a wall clock. -/
def after (ws : ℕ → Instant) : ℕ → IncrementalClock
  | 0 => {}
  | n + 1 => ((after ws n).read (ws n)).2

/-- What a fresh clock shows for reading `n` of a wall clock. -/
def shown (ws : ℕ → Instant) (n : ℕ) : Ticks := ((after ws n).read (ws n)).1

/-- The ticks of reading `n` of a wall clock. -/
def wall (ws : ℕ → Instant) (n : ℕ) : ℤ := (Ticks.ofInstant (ws n)).toInt

/-- How many readings in a row before reading `n` were the same. A fresh clock takes the start of
1970 for the reading before the first one. -/
def repeats (ws : ℕ → Instant) : ℕ → ℕ
  | 0 => if wall ws 0 = 0 then 1 else 0
  | n + 1 => if wall ws (n + 1) = wall ws n then repeats ws n + 1 else 0

/-- The wall clock and the repeats, as an exact number. -/
def total (ws : ℕ → Instant) (n : ℕ) : ℤ := wall ws n + repeats ws n

/-- The repeats and their sum with the wall clock stay in the range of ticks. -/
def Unsaturated (ws : ℕ → Instant) (n : ℕ) : Prop :=
  Fits (repeats ws n) ∧ Fits (total ws n)

instance : Decidable (Unsaturated ws n) := inferInstanceAs (Decidable (_ ∧ _))

/-- **Every move of the wall clock** within `count` readings takes it beyond what was shown. -/
def MovesBeyond (ws : ℕ → Instant) (count : ℕ) : Prop :=
  ∀ n, n + 1 < count → wall ws n < wall ws (n + 1) → total ws n < wall ws (n + 1)

variable {ws : ℕ → Instant} {n count : ℕ}

/-! ## What is shown -/

theorem toInt_addSaturating {a b : Ticks} (h : Fits (a.toInt + b.toInt)) :
    (addSaturating a b).toInt = a.toInt + b.toInt := by
  have hlo : Int64.minValue.toInt = -9223372036854775808 := by decide
  have hhi : Int64.maxValue.toInt = 9223372036854775807 := by decide
  have hclamp : min (max (a.toInt + b.toInt) Int64.minValue.toInt) Int64.maxValue.toInt =
      a.toInt + b.toInt := by
    unfold Fits at h
    omega
  unfold addSaturating
  rw [hclamp, Ticks.toInt_ofInt h]

/-- A step of a clock counts a repeat, or starts over at another reading. -/
theorem read_cases (c : IncrementalClock) (w : Instant) :
    (c.read w).1 = addSaturating (Ticks.ofInstant w) (c.read w).2.repeated ∧
      (c.read w).2.last = Ticks.ofInstant w ∧
      (c.read w).2.repeated = if Ticks.ofInstant w = c.last then c.repeated + 1 else 0 := by
  unfold read advance
  dsimp only
  split
  · rename_i h
    exact ⟨rfl, h.symm, rfl⟩
  · exact ⟨rfl, rfl, rfl⟩

theorem last_after_succ (ws : ℕ → Instant) (n : ℕ) :
    (after ws (n + 1)).last = Ticks.ofInstant (ws n) :=
  (read_cases (after ws n) (ws n)).2.1

/-- **The clock counts the repeats.** -/
theorem repeated_after_succ (h : ∀ m ≤ n, Fits (repeats ws m)) :
    (after ws (n + 1)).repeated.toInt = repeats ws n := by
  have hone : (1 : Ticks).toInt = 1 := by decide
  have hstep := (read_cases (after ws n) (ws n)).2.2
  induction n with
  | zero =>
    rw [after, hstep, repeats]
    unfold wall
    -- the last reading of a fresh clock is 0
    change (if Ticks.ofInstant (ws 0) = 0 then 0 + 1 else 0 : Ticks).toInt = _
    by_cases hw : Ticks.ofInstant (ws 0) = 0
    · rw [if_pos hw, hw]
      rfl
    · have hz : (Ticks.ofInstant (ws 0)).toInt ≠ 0 := fun h0 => hw (Int64.toInt_inj.1 h0)
      rw [if_neg hw, if_neg hz]
      rfl
  | succ n ih =>
    have ih := ih (fun m hm => h m (by omega)) (read_cases (after ws n) (ws n)).2.2
    have hfits := h (n + 1) (Nat.le_refl _)
    rw [repeats] at hfits ⊢
    rw [after, hstep, last_after_succ]
    unfold wall at hfits ⊢
    by_cases hw : Ticks.ofInstant (ws (n + 1)) = Ticks.ofInstant (ws n)
    · rw [if_pos (congrArg Int64.toInt hw)] at hfits ⊢
      rw [if_pos hw]
      push_cast at hfits ⊢
      rw [Ticks.toInt_add (by rwa [ih, hone]), ih, hone]
    · rw [if_neg hw, if_neg (fun h0 => hw (Int64.toInt_inj.1 h0))]
      rfl

/-- **A clock shows the wall clock and the repeats.** -/
theorem toInt_shown (h : ∀ m ≤ n, Unsaturated ws m) : (shown ws n).toInt = total ws n := by
  have hcount : (after ws (n + 1)).repeated.toInt = repeats ws n :=
    repeated_after_succ fun m hm => (h m hm).1
  have hfits := (h n (Nat.le_refl n)).2
  unfold total wall at hfits ⊢
  rw [← hcount] at hfits ⊢
  rw [shown, (read_cases (after ws n) (ws n)).1]
  exact toInt_addSaturating hfits

/-! ## Where readings ascend -/

/-- A reading is one tick more than the one before, or that of a wall clock that moved. -/
theorem total_succ (ws : ℕ → Instant) (n : ℕ) :
    (wall ws (n + 1) = wall ws n ∧ total ws (n + 1) = total ws n + 1) ∨
      (wall ws (n + 1) ≠ wall ws n ∧ total ws (n + 1) = wall ws (n + 1)) := by
  unfold total
  rw [repeats]
  by_cases h : wall ws (n + 1) = wall ws n
  · rw [if_pos h]
    omega
  · rw [if_neg h]
    omega

/-- **While the wall clock stands still**, a clock shows every tick on its way. -/
theorem exists_total_eq {x : ℤ} (hlo : wall ws n < x) (hhi : x ≤ total ws n) :
    ∃ m ≤ n, total ws m = x := by
  induction n with
  | zero =>
    refine ⟨0, Nat.le_refl 0, ?_⟩
    unfold total at hhi ⊢
    rw [repeats] at hhi ⊢
    split
    · rename_i h
      rw [if_pos h] at hhi
      omega
    · rename_i h
      rw [if_neg h] at hhi
      omega
  | succ n ih =>
    rcases total_succ ws n with ⟨hw, ht⟩ | ⟨-, ht⟩
    · -- a repeat shows one tick more, and those below it are shown already
      by_cases hx : x = total ws (n + 1)
      · exact ⟨n + 1, Nat.le_refl _, hx.symm⟩
      · obtain ⟨m, hm, hxm⟩ := ih (by omega) (by omega)
        exact ⟨m, Nat.le_succ_of_le hm, hxm⟩
    · omega

/-- Where every move goes beyond what was shown, readings ascend. -/
theorem total_lt_total (hmono : ∀ n, n + 1 < count → wall ws n ≤ wall ws (n + 1))
    (h : MovesBeyond ws count) {i j : ℕ} (hij : i < j) (hj : j < count) :
    total ws i < total ws j := by
  have hstep : ∀ n, n + 1 < count → total ws n < total ws (n + 1) := by
    intro n hn
    have hle := hmono n hn
    rcases total_succ ws n with ⟨-, ht⟩ | ⟨hw, ht⟩
    · omega
    · have hbeyond := h n hn (by omega)
      omega
  induction j, hij using Nat.le_induction with
  | base => exact hstep i hj
  | succ j _ ih => exact Int.lt_trans (ih (by omega)) (hstep j hj)

/-- A move of the wall clock to what was shown before would repeat a reading. -/
theorem movesBeyond_of_distinct (h : ∀ i j, i < j → j < count → total ws i ≠ total ws j) :
    MovesBeyond ws count := by
  intro n hn hmoves
  refine Int.not_le.1 fun hshown => ?_
  obtain ⟨m, hm, htotal⟩ := exists_total_eq hmoves hshown
  rcases total_succ ws n with ⟨hw, -⟩ | ⟨-, ht⟩
  · omega
  · exact h m (n + 1) (by omega) hn (htotal.trans ht.symm)

/-- **Where readings ascend.** For a wall clock that does not go back, and below the end of the
range, the readings of a fresh clock show the wall clock and the repeats. They ascend exactly if
every move of the wall clock takes it beyond what was shown before; otherwise one of them comes
twice. -/
theorem ascends_iff (ws : ℕ → Instant) (count : ℕ)
    (hmono : ∀ n, n + 1 < count → ws n ≤ ws (n + 1)) (hroom : ∀ n < count, Unsaturated ws n) :
    (∀ n < count, (shown ws n).toInt = total ws n) ∧
      ((∀ i j, i < j → j < count → shown ws i < shown ws j) ↔ MovesBeyond ws count) ∧
      ((∀ i j, i < j → j < count → shown ws i ≠ shown ws j) ↔ MovesBeyond ws count) := by
  have hwall : ∀ n, n + 1 < count → wall ws n ≤ wall ws (n + 1) :=
    fun n hn => Ticks.ofInstant_mono (hmono n hn)
  have hshown : ∀ n < count, (shown ws n).toInt = total ws n :=
    fun n hn => toInt_shown fun m hm => hroom m (by omega)
  have hascend : MovesBeyond ws count → ∀ i j, i < j → j < count → shown ws i < shown ws j := by
    intro h i j hij hj
    rw [Int64.lt_iff_toInt_lt, hshown i (by omega), hshown j hj]
    exact total_lt_total hwall h hij hj
  have hdistinct : (∀ i j, i < j → j < count → shown ws i ≠ shown ws j) → MovesBeyond ws count := by
    refine fun h => movesBeyond_of_distinct fun i j hij hj htotal => h i j hij hj ?_
    rw [← Int64.toInt_inj, hshown i (by omega), hshown j hj, htotal]
  have hne : (∀ i j, i < j → j < count → shown ws i < shown ws j) →
      ∀ i j, i < j → j < count → shown ws i ≠ shown ws j :=
    fun h i j hij hj => Int64.ne_of_lt (h i j hij hj)
  exact ⟨hshown, ⟨fun h => hdistinct (hne h), hascend⟩, hdistinct, fun h => hne (hascend h)⟩

/-- A wall clock that moves by four ticks after every third reading. -/
def coarse (n : ℕ) : Instant := 500 + 400 * (n / 3 : ℕ)

/-- A wall clock that moves by more ticks than it was read ascends. -/
theorem ascends_iff_coarse : (∀ n < 6, coarse n ≤ coarse (n + 1)) ∧
    (∀ n < 7, Unsaturated coarse n) ∧ ∀ i j, i < j → j < 7 → shown coarse i < shown coarse j := by
  have hmono : ∀ n < 6, coarse n ≤ coarse (n + 1) := by decide
  have hroom : ∀ n < 7, Unsaturated coarse n := by decide
  have hbeyond : ∀ n < 6, wall coarse n < wall coarse (n + 1) →
      total coarse n < wall coarse (n + 1) := by decide
  obtain ⟨-, hascends, -⟩ := ascends_iff coarse 7 (fun n hn => hmono n (by omega)) hroom
  exact ⟨hmono, hroom, hascends.2 fun n hn => hbeyond n (by omega)⟩

/-- A wall clock that moves by one tick after every second reading. -/
def fine (n : ℕ) : Instant := 500 + 100 * (n / 2 : ℕ)

/-- **A reading comes twice.** The repeat of tick 5 is shown as tick 6, and so is tick 6 itself. -/
theorem repeats_fine : (∀ n < 2, fine n ≤ fine (n + 1)) ∧ (∀ n < 3, Unsaturated fine n) ∧
    shown fine 0 = 5 ∧ shown fine 1 = 6 ∧ shown fine 2 = 6 := by
  decide

end IncrementalClock

end UuidForge
