import UuidForge.Proofs.Uuid.Gather

/-!
# Stamped bits

Writing a variant is a write to one slice: the one to three bits of its code. So a stamp touches
the version nibble and the code of the variant, and no other bit.

* `Uuid.withVariant_eq_write`: **a variant is written to its own bits.**
* `Uuid.read_stamp_of_apart`: a stamp leaves every slice alone that lies apart from both.
* `Uuid.read_version_stamp`, `Uuid.read_variant_stamp`: a stamp holds its own bits.
-/

namespace UuidForge

namespace Variant

/-- The bits that the code of a variant takes. -/
def slice : Variant → Slice
  | ncs => ⟨63, 1⟩
  | rfc4122 => ⟨62, 2⟩
  | microsoft => ⟨61, 3⟩
  | reserved => ⟨61, 3⟩

/-- The code of a variant in its own bits. -/
def prefixBits : (w : Variant) → BitVec w.slice.width
  | ncs => 0#1
  | rfc4122 => 2#2
  | microsoft => 6#3
  | reserved => 7#3

/-- The mask of a variant selects its slice, and the code fills it. -/
theorem mask_code_bit (w : Variant) : ∀ i < 8,
    w.mask.getLsbD i = decide (w.slice.start ≤ i + 56) ∧
      (w.slice.start ≤ i + 56 →
        w.code.getLsbD i = w.prefixBits.getLsbD (i + 56 - w.slice.start)) := by
  cases w <;> decide

end Variant

namespace Uuid

variable (u : Uuid)

/-- **A variant is written to the bits of its code**, and nowhere else. -/
theorem withVariant_eq_write (w : Variant) : u.withVariant w = w.slice.write u w.prefixBits := by
  have hw : 61 ≤ w.slice.start ∧ w.slice.start + w.slice.width = 64 := by cases w <;> decide
  have h : (u.withVariant w).bits = (w.slice.write u w.prefixBits).bits := by
    refine BitVec.eq_of_getLsbD_eq fun i hi => ?_
    rw [withVariant, Slice.bit_write, Slice.bit_write]
    by_cases h8 : 56 ≤ i ∧ i < 64
    · obtain ⟨hm, hc⟩ := w.mask_code_bit (i - 56) (by omega)
      have hi : i - 56 + 56 = i := by omega
      rw [hi] at hm hc
      rw [if_pos (by simp; omega), Variant.encode, blend_bit, hm]
      by_cases hs : w.slice.start ≤ i
      · rw [if_pos (by simpa using hs), if_pos (by omega), hc hs]
      · rw [if_neg (by simpa using hs), if_neg (by omega), Slice.read_bit]
        have h1 : i - 56 < 8 := by omega
        have h2 : 56 + (i - 56) = i := by omega
        simp [h1, h2]
    · rw [if_neg (by simp; omega), if_neg (by omega)]
  cases hu : u.withVariant w
  cases hv : w.slice.write u w.prefixBits
  rw [hu, hv] at h
  exact congrArg Uuid.mk h

/-- **A stamp leaves all other bits alone.** -/
theorem read_stamp_of_apart {s : Slice} (v : Version) (w : Variant) (hv : s.Apart Slice.version)
    (hw : s.Apart w.slice) : s.read (u.stamp v w) = s.read u := by
  rw [stamp, withVariant_eq_write, Slice.read_write_of_apart hw, withVersion,
    Slice.read_write_of_apart hv]

theorem read_version_stamp (v : Version) (w : Variant) :
    Slice.version.read (u.stamp v w) = v.number :=
  congrArg Version.number (version_stamp u v w)

theorem read_withVariant (w : Variant) : w.slice.read (u.withVariant w) = w.prefixBits := by
  rw [withVariant_eq_write, Slice.read_write]
  cases w <;> decide

theorem read_variant_stamp (v : Version) (w : Variant) :
    w.slice.read (u.stamp v w) = w.prefixBits :=
  read_withVariant _ w

/-- A UUID carries the variant whose code it holds. -/
theorem variant_of_read {w : Variant} (h : w.slice.read u = w.prefixBits) : u.variant = w := by
  have hsame : u.withVariant w = u := by rw [withVariant_eq_write, ← h, Slice.write_read]
  rw [← hsame, variant_withVariant]

end Uuid

end UuidForge
