import UuidForge.Uuid.Basic

/-!
# Slices of the 128 bits

Every field of a UUID is a run of adjacent bits or a list of such runs. A `Slice` is one run; it
can be read and written, and writing touches no bit outside.

* `blend_bit`: a masked write takes the selected bits from the new word, all others from the old.
* `Slice.bit_write`: a write to a slice, bit by bit.
* `Slice.read_write`: a slice reads back what was written.
* `Slice.read_write_of_apart`: a write leaves every slice that lies apart as it was.
-/

namespace UuidForge

/-- **Masked write.** The bits that `mask` selects come from `new`, all others from `old`. -/
def blend {n : Nat} (old new mask : BitVec n) : BitVec n := (old &&& ~~~mask) ||| (new &&& mask)

theorem blend_bit {n : Nat} (old new mask : BitVec n) (i : Nat) :
    (blend old new mask).getLsbD i =
      if mask.getLsbD i then new.getLsbD i else old.getLsbD i := by
  by_cases hi : i < n
  · simp only [blend, BitVec.getLsbD_or, BitVec.getLsbD_and, BitVec.getLsbD_not, hi]
    cases mask.getLsbD i <;> simp
  · rw [BitVec.getLsbD_of_ge _ _ (by omega), BitVec.getLsbD_of_ge mask _ (by omega),
      BitVec.getLsbD_of_ge old _ (by omega)]
    rfl

/-- A run of `width` adjacent bits from bit `start` upwards; bit 0 is the last bit of octet 15. -/
structure Slice where
  start : Nat
  width : Nat
  deriving DecidableEq, Repr

namespace Slice

/-- The bits of a slice. -/
def mask (s : Slice) : BitVec 128 := (BitVec.allOnes s.width).setWidth 128 <<< s.start

/-- The value held in a slice. -/
def read (s : Slice) (u : Uuid) : BitVec s.width := u.bits.extractLsb' s.start s.width

/-- Stores a value in a slice. -/
def write (s : Slice) (u : Uuid) (v : BitVec s.width) : Uuid :=
  ⟨blend u.bits (v.setWidth 128 <<< s.start) s.mask⟩

/-- Stores those bits of a value in a slice that `m` selects. -/
def writeMasked (s : Slice) (u : Uuid) (v m : BitVec s.width) : Uuid :=
  s.write u (blend (s.read u) v m)

/-- The slice lies inside the 128 bits. -/
def Fits (s : Slice) : Prop := s.start + s.width ≤ 128

/-- Two slices share no bit. -/
def Apart (s t : Slice) : Prop := s.start + s.width ≤ t.start ∨ t.start + t.width ≤ s.start

instance (s : Slice) : Decidable s.Fits := inferInstanceAs (Decidable (_ ≤ _))

instance (s t : Slice) : Decidable (s.Apart t) := inferInstanceAs (Decidable (_ ∨ _))

theorem mask_bit (s : Slice) (i : Nat) :
    s.mask.getLsbD i = decide (i < 128 ∧ s.start ≤ i ∧ i < s.start + s.width) := by
  simp only [mask, BitVec.getLsbD_shiftLeft, BitVec.getLsbD_setWidth, BitVec.getLsbD_allOnes]
  by_cases h1 : i < 128 <;> by_cases h2 : s.start ≤ i <;>
    by_cases h3 : i < s.start + s.width <;> simp [h1, h2, h3] <;> omega

theorem read_bit (s : Slice) (u : Uuid) (i : Nat) :
    (s.read u).getLsbD i = (decide (i < s.width) && u.bits.getLsbD (s.start + i)) := by
  simp [read, BitVec.getLsbD_extractLsb']

/-- **A write, bit by bit.** -/
theorem bit_write (s : Slice) (u : Uuid) (v : BitVec s.width) (i : Nat) :
    (s.write u v).bits.getLsbD i =
      if i < 128 ∧ s.start ≤ i ∧ i < s.start + s.width then v.getLsbD (i - s.start)
      else u.bits.getLsbD i := by
  rw [write, blend_bit, mask_bit]
  by_cases h : i < 128 ∧ s.start ≤ i ∧ i < s.start + s.width
  · have h2 : ¬ i < s.start := by omega
    simp [h, h2]
  · simp [h]

/-- **A slice reads back what was written.** -/
theorem read_write {s : Slice} (h : s.Fits) (u : Uuid) (v : BitVec s.width) :
    s.read (s.write u v) = v := by
  refine BitVec.eq_of_getLsbD_eq fun i hi => ?_
  have h1 : s.start + i < 128 := by unfold Fits at h; omega
  rw [read_bit, bit_write]
  simp [hi, h1]

/-- **Writing what a slice holds changes nothing.** -/
theorem write_read (s : Slice) (u : Uuid) : s.write u (s.read u) = u := by
  have h : (s.write u (s.read u)).bits = u.bits := by
    refine BitVec.eq_of_getLsbD_eq fun i _ => ?_
    rw [bit_write]
    split
    · rename_i h
      rw [read_bit]
      have h1 : i - s.start < s.width := by omega
      have h2 : s.start + (i - s.start) = i := by omega
      simp [h1, h2]
    · rfl
  cases u
  exact congrArg Uuid.mk h

/-- **A write leaves every slice that lies apart as it was.** -/
theorem read_write_of_apart {s t : Slice} (h : s.Apart t) (u : Uuid) (v : BitVec t.width) :
    s.read (t.write u v) = s.read u := by
  refine BitVec.eq_of_getLsbD_eq fun i hi => ?_
  have h1 : ¬ (s.start + i < 128 ∧ t.start ≤ s.start + i ∧ s.start + i < t.start + t.width) := by
    unfold Apart at h; omega
  rw [read_bit, read_bit, bit_write, if_neg h1]

end Slice

end UuidForge
