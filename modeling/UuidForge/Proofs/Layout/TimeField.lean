import UuidForge.Proofs.Layout.Lens
import UuidForge.Proofs.Time.Scale

/-!
# Timestamp fields

A timestamp field counts time in units of its scale and keeps the high bits of the count, so it
tells the time in steps of some ticks.

* `TimeField.write_eq_ok_iff`: a point of time can be written exactly if it is on the scale.
* `TimeField.lens`: **a timestamp field is a lens**, which keeps the start of a step.
-/

namespace UuidForge

/-- The start of the step of time that `t` lies in, where steps are counted from `epoch`. -/
def Ticks.floor (t : Ticks) (epoch : Int) (step : ℕ) : Ticks :=
  Int64.ofInt (epoch + (t.toInt - epoch) / step * step)

theorem Ticks.floor_one (t : Ticks) (epoch : Int) : t.floor epoch 1 = t := by
  have h : epoch + (t.toInt - epoch) / (1 : ℕ) * (1 : ℕ) = t.toInt := by omega
  rw [floor, h, Int64.ofInt_toInt]

namespace TimeField

/-- The slices of a field lie apart and hold what is not dropped of the counts of its scale. -/
structure Sound (f : TimeField) : Prop where
  scale : f.scale.Sound
  apart : f.slices.Pairwise Slice.Apart
  fits : ∀ s ∈ f.slices, s.Fits
  width : totalWidth f.slices + f.dropped = f.scale.width

/-- The ticks of one step of a field. -/
def step (f : TimeField) : ℕ := f.scale.unit <<< f.dropped

variable {f : TimeField} {u u' : Uuid} {t : Ticks}

theorem size_eq (hf : f.Sound) : f.scale.size = 2 ^ totalWidth f.slices * 2 ^ f.dropped := by
  rw [TimeScale.size, Nat.one_shiftLeft, ← hf.width, pow_add]

/-- **A point of time can be written exactly if it is on the scale.** -/
theorem write_eq_ok_iff : f.write u t = .ok u' ↔
    ∃ n, f.scale.count? t = some n ∧ scatter f.slices u (n >>> f.dropped) = u' := by
  unfold write
  cases f.scale.count? t with
  | none => simp
  | some n => simp

theorem exists_write_iff (hf : f.Sound) :
    (∃ u', f.write u t = .ok u') ↔ f.scale.first ≤ t.toInt ∧ t.toInt ≤ f.scale.last := by
  rw [← TimeScale.count?_isSome_iff hf.scale.unit, Option.isSome_iff_exists]
  constructor
  · rintro ⟨u', h⟩
    obtain ⟨n, hn, -⟩ := write_eq_ok_iff.1 h
    exact ⟨n, hn⟩
  · rintro ⟨n, hn⟩
    exact ⟨_, write_eq_ok_iff.2 ⟨n, hn, rfl⟩⟩

theorem write_eq_error (hf : f.Sound)
    (h : ¬ (f.scale.first ≤ t.toInt ∧ t.toInt ≤ f.scale.last)) :
    f.write u t = .error (.outOfRange (.timestamp f.scale.first f.scale.last)) := by
  rw [← TimeScale.count?_isSome_iff hf.scale.unit, Option.not_isSome_iff_eq_none] at h
  rw [write, h]

theorem count_lt (hf : f.Sound) (u : Uuid) : gather f.slices u <<< f.dropped < f.scale.size := by
  rw [size_eq hf, Nat.shiftLeft_eq]
  exact Nat.mul_lt_mul_of_pos_right (gather_lt _ _) (Nat.two_pow_pos _)

/-- The count that a field keeps is that of the start of the step. -/
theorem point_of_count {n : ℕ} (hn : f.scale.count? t = some n) :
    f.scale.point (n >>> f.dropped <<< f.dropped) = t.floor f.scale.first f.step := by
  have hcount := (TimeScale.count?_eq_some_iff.1 hn).1
  have hdiv : (t.toInt - f.scale.epoch) / (f.step : Int) = (n / 2 ^ f.dropped : ℕ) := by
    rw [step, Nat.shiftLeft_eq, Int.natCast_mul, ← Int.ediv_ediv_of_nonneg (Int.natCast_nonneg _),
      hcount, Int.natCast_ediv]
  unfold TimeScale.point Ticks.floor TimeScale.first
  rw [hdiv, step, Nat.shiftLeft_eq, Nat.shiftLeft_eq, Nat.shiftRight_eq_div_pow, Int.natCast_mul,
    Int.natCast_mul, Int.mul_assoc, Int.mul_comm (f.scale.unit : Int)]

/-- **A timestamp field is a lens** for the points of time on its scale. -/
theorem lens (hf : f.Sound) :
    Lens f.slices (fun u => .ok (f.read u)) f.write
      (fun t => f.scale.first ≤ t.toInt ∧ t.toInt ≤ f.scale.last)
      (fun t => t.floor f.scale.first f.step) where
  get_eq_get_iff u v := by
    rw [← gather_eq_gather_iff, Except.ok.injEq]
    constructor
    · intro h
      have hcount := TimeScale.point_injective hf.scale (count_lt hf u) (count_lt hf v) h
      rw [Nat.shiftLeft_eq, Nat.shiftLeft_eq] at hcount
      exact Nat.eq_of_mul_eq_mul_right (Nat.two_pow_pos _) hcount
    · intro h
      rw [read, read, h]
  set_ok_iff u t := exists_write_iff hf
  read_set u t u' h s hs := by
    obtain ⟨n, -, rfl⟩ := write_eq_ok_iff.1 h
    exact read_scatter_of_apart hs u _
  get_set u t u' h := by
    obtain ⟨n, hn, rfl⟩ := write_eq_ok_iff.1 h
    have hlt := (TimeScale.count?_eq_some_iff.1 hn).2
    rw [size_eq hf] at hlt
    have hkept : n >>> f.dropped < 2 ^ totalWidth f.slices := by
      rw [Nat.shiftRight_eq_div_pow]
      exact Nat.div_lt_of_lt_mul (Nat.mul_comm _ _ ▸ hlt)
    rw [read, gather_scatter hf.apart hf.fits, Nat.mod_eq_of_lt hkept, point_of_count hn]
  set_get u := by
    refine ⟨_, rfl, write_eq_ok_iff.2 ⟨_, TimeScale.count?_point hf.scale (count_lt hf u), ?_⟩⟩
    rw [Nat.shiftLeft_shiftRight, scatter_gather]

end TimeField

end UuidForge
