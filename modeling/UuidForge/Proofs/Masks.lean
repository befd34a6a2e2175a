import Mathlib.Data.Nat.Bitwise

/-!
# Masks

A mask of ones cuts a word down to its low bits, as a conversion to a narrower word and back does.

* `toNat_and_ones`: the number that a mask leaves.
* `setWidth_setWidth_eq_and`: a conversion to a narrower word is a mask.
* `and_ones_eq_self_iff`: a mask takes nothing from a word exactly if its number fits.
* `and_twoPow_ne_zero_iff`: a mask of one bit.
-/

namespace UuidForge

variable {w m : ℕ}

theorem toNat_and_ones (hm : m ≤ w) (x : BitVec w) :
    (x &&& BitVec.ofNat w (2 ^ m - 1)).toNat = x.toNat % 2 ^ m := by
  have hle : 2 ^ m ≤ 2 ^ w := Nat.pow_le_pow_right (by decide) hm
  have hpos : 0 < 2 ^ m := Nat.two_pow_pos m
  rw [BitVec.toNat_and, BitVec.toNat_ofNat, Nat.mod_eq_of_lt (by omega),
    Nat.and_two_pow_sub_one_eq_mod]

/-- **Cutting a word to its low bits is masking it.** -/
theorem setWidth_setWidth_eq_and (hm : m ≤ w) (x : BitVec w) :
    (x.setWidth m).setWidth w = x &&& BitVec.ofNat w (2 ^ m - 1) := by
  apply BitVec.eq_of_toNat_eq
  rw [BitVec.toNat_setWidth_of_le hm, BitVec.toNat_setWidth, toNat_and_ones hm]

/-- A mask takes nothing from a word that fits. -/
theorem and_ones_eq_self_iff (hm : m ≤ w) (x : BitVec w) :
    x &&& BitVec.ofNat w (2 ^ m - 1) = x ↔ x.toNat < 2 ^ m := by
  rw [← BitVec.toNat_inj, toNat_and_ones hm]
  constructor
  · intro h
    rw [← h]
    exact Nat.mod_lt _ (Nat.two_pow_pos m)
  · intro h
    exact Nat.mod_eq_of_lt h

/-- A bit of a word is set. -/
theorem and_twoPow_ne_zero_iff {k : ℕ} (hk : k < w) (x : BitVec w) :
    x &&& BitVec.twoPow w k ≠ 0 ↔ x.getLsbD k = true := by
  have hne : BitVec.twoPow w k ≠ 0 := by
    intro h
    have hb := congrArg (fun y => y.getLsbD k) h
    simp [hk] at hb
  rw [BitVec.and_twoPow]
  cases x.getLsbD k
  · simp
  · simpa using hne

end UuidForge
