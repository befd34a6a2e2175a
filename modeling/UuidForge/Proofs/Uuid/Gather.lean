import Mathlib.Data.Nat.Bitwise
import UuidForge.Uuid.Layout

/-!
# Numbers spread over slices

`scatter` spreads a number over a list of slices and `gather` collects it again.

* `gather_scatter`: **slices that lie apart hold a number modulo `2` to their total width.**
* `read_scatter_of_apart`: what lies apart from all of them is not touched.
* `gather_eq_gather_iff`: what is gathered depends on the slices alone, and on all of them.
* `scatter_gather`: **scattering what was gathered changes nothing.**
-/

namespace UuidForge

theorem Slice.Apart.symm {s t : Slice} (h : s.Apart t) : t.Apart s := Or.symm h

theorem foldl_width (ss : List Slice) (n : ℕ) :
    ss.foldl (fun n s => n + s.width) n = n + totalWidth ss := by
  unfold totalWidth
  induction ss generalizing n with
  | nil => rfl
  | cons s ss ih =>
    rw [List.foldl_cons, List.foldl_cons, ih, ih (0 + s.width)]
    omega

theorem totalWidth_cons (s : Slice) (ss : List Slice) :
    totalWidth (s :: ss) = s.width + totalWidth ss := by
  rw [totalWidth, List.foldl_cons, foldl_width]
  omega

theorem foldl_read (ss : List Slice) (u : Uuid) (n : ℕ) :
    ss.foldl (fun n s => n <<< s.width + (s.read u).toNat) n =
      n <<< totalWidth ss + gather ss u := by
  unfold gather
  induction ss generalizing n with
  | nil => rfl
  | cons s ss ih =>
    rw [List.foldl_cons, List.foldl_cons, ih, ih (0 <<< s.width + _), totalWidth_cons]
    simp only [Nat.shiftLeft_eq, Nat.zero_mul, Nat.zero_add, Nat.add_mul, pow_add,
      Nat.mul_assoc, Nat.add_assoc]

/-- The first slice holds the most significant part. -/
theorem gather_cons (s : Slice) (ss : List Slice) (u : Uuid) :
    gather (s :: ss) u = (s.read u).toNat <<< totalWidth ss + gather ss u := by
  rw [gather, List.foldl_cons, foldl_read]
  simp

theorem gather_congr {ss : List Slice} {u v : Uuid} (h : ∀ s ∈ ss, s.read u = s.read v) :
    gather ss u = gather ss v := by
  induction ss with
  | nil => rfl
  | cons s ss ih =>
    rw [gather_cons, gather_cons, h s (by simp), ih fun t ht => h t (by simp [ht])]

/-- **A scattered number touches nothing that lies apart.** -/
theorem read_scatter_of_apart {t : Slice} {ss : List Slice} (h : ∀ s ∈ ss, t.Apart s) (u : Uuid)
    (n : ℕ) : t.read (scatter ss u n) = t.read u := by
  induction ss generalizing u with
  | nil => rfl
  | cons s ss ih =>
    rw [scatter, ih fun x hx => h x (by simp [hx]), Slice.read_write_of_apart (h s (by simp))]

/-- **A number that was scattered is gathered again**, as far as the slices can hold it. -/
theorem gather_scatter {ss : List Slice} (hp : ss.Pairwise Slice.Apart) (hf : ∀ s ∈ ss, s.Fits)
    (u : Uuid) (n : ℕ) : gather ss (scatter ss u n) = n % 2 ^ totalWidth ss := by
  induction ss generalizing u with
  | nil => simp [gather, totalWidth, Nat.mod_one]
  | cons s ss ih =>
    obtain ⟨hs, hp⟩ := List.pairwise_cons.1 hp
    rw [gather_cons, scatter, ih hp (fun t ht => hf t (by simp [ht])),
      read_scatter_of_apart hs, Slice.read_write (hf s (by simp)), totalWidth_cons]
    -- the first slice holds the quotient, all others the remainder
    rw [Nat.add_comm s.width, pow_add, Nat.mod_mul, BitVec.toNat_ofNat, Nat.shiftLeft_eq,
      Nat.shiftRight_eq_div_pow, Nat.mul_comm, Nat.add_comm]

theorem gather_lt (ss : List Slice) (u : Uuid) : gather ss u < 2 ^ totalWidth ss := by
  induction ss with
  | nil => simp [gather, totalWidth]
  | cons s ss ih =>
    have hread := (s.read u).isLt
    have hmul : ((s.read u).toNat + 1) * 2 ^ totalWidth ss ≤ 2 ^ s.width * 2 ^ totalWidth ss :=
      Nat.mul_le_mul_right _ hread
    rw [gather_cons, totalWidth_cons, pow_add, Nat.shiftLeft_eq]
    rw [Nat.add_mul] at hmul
    omega

/-- **What is gathered tells what every slice holds.** -/
theorem gather_eq_gather_iff {ss : List Slice} {u v : Uuid} :
    gather ss u = gather ss v ↔ ∀ s ∈ ss, s.read u = s.read v := by
  refine ⟨fun h => ?_, gather_congr⟩
  induction ss with
  | nil => simp
  | cons s ss ih =>
    -- the first slice holds the quotient, all others the remainder
    have hu := gather_lt ss u
    have hv := gather_lt ss v
    rw [gather_cons, gather_cons, Nat.shiftLeft_eq, Nat.shiftLeft_eq] at h
    have hmod := congrArg (· % 2 ^ totalWidth ss) h
    simp only [Nat.mul_add_mod_self_right, Nat.mod_eq_of_lt hu, Nat.mod_eq_of_lt hv] at hmod
    rw [hmod, Nat.add_right_cancel_iff] at h
    have hs : s.read u = s.read v :=
      BitVec.eq_of_toNat_eq (Nat.eq_of_mul_eq_mul_right (Nat.two_pow_pos _) h)
    intro t ht
    rcases List.mem_cons.1 ht with rfl | ht
    · exact hs
    · exact ih hmod t ht

/-- Slices take no more of a number than they can hold. -/
theorem scatter_add (ss : List Slice) (u : Uuid) (a n : ℕ) :
    scatter ss u (a <<< totalWidth ss + n) = scatter ss u n := by
  induction ss generalizing u a with
  | nil => rfl
  | cons s ss ih =>
    have hsplit : a <<< totalWidth (s :: ss) = (a <<< s.width) <<< totalWidth ss := by
      rw [totalWidth_cons, Nat.shiftLeft_add]
    have hhead : BitVec.ofNat s.width ((a <<< totalWidth (s :: ss) + n) >>> totalWidth ss) =
        BitVec.ofNat s.width (n >>> totalWidth ss) := by
      refine BitVec.eq_of_toNat_eq ?_
      rw [hsplit, Nat.shiftLeft_eq, Nat.shiftRight_eq_div_pow, Nat.mul_comm,
        Nat.mul_add_div (Nat.two_pow_pos _), ← Nat.shiftRight_eq_div_pow, BitVec.toNat_ofNat,
        BitVec.toNat_ofNat, Nat.shiftLeft_eq, Nat.mul_add_mod_self_right]
    rw [scatter, scatter, hhead, hsplit, ih]

/-- **Scattering what was gathered changes nothing.** -/
theorem scatter_gather (ss : List Slice) (u : Uuid) : scatter ss u (gather ss u) = u := by
  induction ss with
  | nil => rfl
  | cons s ss ih =>
    have hhead : gather (s :: ss) u >>> totalWidth ss = (s.read u).toNat := by
      rw [gather_cons, Nat.shiftLeft_eq, Nat.shiftRight_eq_div_pow, Nat.mul_comm,
        Nat.mul_add_div (Nat.two_pow_pos _), Nat.div_eq_of_lt (gather_lt ss u), Nat.add_zero]
    rw [scatter, hhead, BitVec.ofNat_toNat, BitVec.setWidth_eq, Slice.write_read, gather_cons,
      scatter_add, ih]

end UuidForge
