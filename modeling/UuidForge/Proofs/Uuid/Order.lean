import UuidForge.Proofs.Uuid.Gather

/-!
# Slices and the order of UUIDs

Slices that tile the bits from the top decide the order of UUIDs, the first slice first.

* `gather_of_tile`: what tiling slices hold is a run of bits of the number.
* `gather_cons_lt_iff`: gathered numbers compare slice by slice, the first slice first.
* `Uuid.lt_of_read_lt`: **the first of the tiling slices that differs decides.**
* `Uuid.gather_of_full_tile`: slices that tile all bits hold the number.
-/

namespace UuidForge

/-- The slices follow each other without a gap, from bit `hi` downwards to bit `lo`. -/
def Tile (hi : ℕ) : List Slice → ℕ → Prop
  | [], lo => lo = hi
  | s :: ss, lo => s.start + s.width = hi ∧ Tile s.start ss lo

instance decidableTile : ∀ (hi : ℕ) (ss : List Slice) (lo : ℕ), Decidable (Tile hi ss lo)
  | hi, [], lo => inferInstanceAs (Decidable (lo = hi))
  | hi, s :: ss, lo =>
    have := decidableTile s.start ss lo
    inferInstanceAs (Decidable (s.start + s.width = hi ∧ Tile s.start ss lo))

theorem totalWidth_of_tile {hi lo : ℕ} {ss : List Slice} (h : Tile hi ss lo) :
    totalWidth ss + lo = hi := by
  induction ss generalizing hi with
  | nil => exact (Nat.zero_add lo).trans h
  | cons s ss ih =>
    obtain ⟨hs, ht⟩ := h
    have := ih ht
    rw [totalWidth_cons]
    omega

/-- **What tiling slices hold** is the number above bit `lo`, up to bit `hi`. -/
theorem gather_of_tile {hi lo : ℕ} {ss : List Slice} (h : Tile hi ss lo) (u : Uuid) :
    gather ss u = u.toNat / 2 ^ lo % 2 ^ totalWidth ss := by
  induction ss generalizing hi with
  | nil => simp [gather, totalWidth, Nat.mod_one]
  | cons s ss ih =>
    obtain ⟨hs, ht⟩ := h
    have hw := totalWidth_of_tile ht
    have hread : (s.read u).toNat = u.toNat / 2 ^ lo / 2 ^ totalWidth ss % 2 ^ s.width := by
      rw [Nat.div_div_eq_div_mul, ← pow_add, Nat.add_comm lo, hw, ← Nat.shiftRight_eq_div_pow]
      rfl
    rw [gather_cons, ih ht, hread, totalWidth_cons, Nat.add_comm s.width, pow_add, Nat.mod_mul,
      Nat.shiftLeft_eq, Nat.mul_comm, Nat.add_comm]

theorem gather_concat (ss : List Slice) (s : Slice) (u : Uuid) :
    gather (ss ++ [s]) u = gather ss u <<< s.width + (s.read u).toNat := by
  simp [gather]

/-- **Gathered numbers compare slice by slice.** -/
theorem gather_cons_lt_iff {s : Slice} {ss : List Slice} {u v : Uuid} :
    gather (s :: ss) u < gather (s :: ss) v ↔
      (s.read u).toNat < (s.read v).toNat ∨ s.read u = s.read v ∧ gather ss u < gather ss v := by
  have hu := gather_lt ss u
  have hv := gather_lt ss v
  -- a larger first slice outweighs whatever the others hold
  have hstep : ∀ {a b : ℕ}, a < b →
      a <<< totalWidth ss + 2 ^ totalWidth ss ≤ b <<< totalWidth ss := by
    intro a b hab
    rw [Nat.shiftLeft_eq, Nat.shiftLeft_eq, ← Nat.succ_mul]
    exact Nat.mul_le_mul_right _ hab
  rw [gather_cons, gather_cons]
  rcases Nat.lt_trichotomy (s.read u).toNat (s.read v).toNat with hlt | heq | hgt
  · have := hstep hlt
    exact iff_of_true (by omega) (Or.inl hlt)
  · rw [heq, Nat.add_lt_add_iff_left]
    exact ⟨fun h => Or.inr ⟨BitVec.eq_of_toNat_eq heq, h⟩, fun h => h.elim (by omega) And.right⟩
  · have := hstep hgt
    refine iff_of_false (by omega) ?_
    rintro (hlt | ⟨he, -⟩)
    · omega
    · rw [he] at hgt
      exact Nat.lt_irrefl _ hgt

namespace Uuid

variable {u v : Uuid}

/-- **Slices that tile all bits hold the number.** -/
theorem gather_of_full_tile {ss : List Slice} (h : Tile 128 ss 0) (u : Uuid) :
    gather ss u = u.toNat := by
  have hw := totalWidth_of_tile h
  have hlt : u.toNat < 2 ^ totalWidth ss := by
    rw [← Nat.add_zero (totalWidth ss), hw]
    exact u.toNat_lt
  rw [gather_of_tile h, pow_zero, Nat.div_one, Nat.mod_eq_of_lt hlt]

theorem lt_iff_of_tile {ss : List Slice} (h : Tile 128 ss 0) :
    u < v ↔ gather ss u < gather ss v := by
  rw [gather_of_full_tile h, gather_of_full_tile h, lt_iff_toNat]

/-- UUIDs that agree on slices that tile all bits are the same. -/
theorem eq_of_tile {ss : List Slice} (h : Tile 128 ss 0) (huv : ∀ s ∈ ss, s.read u = s.read v) :
    u = v := by
  have hnat : u.toNat = v.toNat := by
    rw [← gather_of_full_tile h, ← gather_of_full_tile h, gather_congr huv]
  rw [← ofNat_toNat u, hnat, ofNat_toNat]

theorem lt_of_gather_lt {ss : List Slice} {lo : ℕ} (h : Tile 128 ss lo)
    (hlt : gather ss u < gather ss v) : u < v := by
  have hw := totalWidth_of_tile h
  -- above bit `lo` there is nothing but what the slices hold
  have hmod : ∀ x : Uuid, gather ss x = x.toNat / 2 ^ lo := by
    intro x
    rw [gather_of_tile h, Nat.mod_eq_of_lt]
    refine Nat.div_lt_of_lt_mul ?_
    rw [← pow_add, Nat.add_comm, hw]
    exact x.toNat_lt
  rw [hmod, hmod] at hlt
  exact lt_iff_toNat.2 (Nat.lt_of_div_lt_div hlt)

/-- **The first slice that differs decides.** -/
theorem lt_of_read_lt (ss : List Slice) (s : Slice) (lo : ℕ) (h : Tile 128 (ss ++ [s]) lo)
    (heq : ∀ t ∈ ss, t.read u = t.read v)
    (hlt : (s.read u).toNat < (s.read v).toNat) : u < v := by
  refine lt_of_gather_lt h ?_
  rw [gather_concat, gather_concat, gather_congr heq]
  exact Nat.add_lt_add_left hlt _

end Uuid

end UuidForge
