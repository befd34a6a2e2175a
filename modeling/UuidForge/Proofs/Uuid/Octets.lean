import UuidForge.Proofs.Uuid.Order

/-!
# Octets and slices

A run of whole octets is a slice, so slices of whole octets that tile all bits spell out the octets.

* `Octets.ofNat_append`: octets of a number that is put together from two.
* `Slice.read_of_tile`: what a slice holds, told by slices that tile it.
* `Slice.read_write_within`: what a part of a slice holds after a write.
* `Uuid.octets_of_tile`: **slices of whole octets hold the octets**, from the first to the last.
* `Slice.value_octets`, `Slice.octets_write`: a slice of whole octets is read from its octets and
  written to them, the most significant octet first.
-/

namespace UuidForge

/-- The digits of two numbers, the second of which fits in its places. -/
theorem Radix.digits_append (b m n v : ℕ) {w : ℕ} (hw : w < Nat.pow b n) :
    digits b (m + n) (v * Nat.pow b n + w) = digits b m v ++ digits b n w := by
  induction n generalizing w with
  | zero =>
    have hzero : w = 0 := Nat.lt_one_iff.1 hw
    have hone : v * Nat.pow b 0 + w = v := by
      rw [hzero]
      exact Nat.mul_one v
    rw [hone, hzero, digits, List.append_nil, Nat.add_zero]
  | succ n ih =>
    have hpow : Nat.pow b (n + 1) = b * Nat.pow b n := Nat.mul_comm ..
    have hb : 0 < b := by
      rcases Nat.eq_zero_or_pos b with hzero | hpos
      · rw [hpow, hzero, Nat.zero_mul] at hw
        omega
      · exact hpos
    have hsplit : v * Nat.pow b (n + 1) + w = b * (v * Nat.pow b n) + w := by
      rw [hpow, Nat.mul_left_comm]
    have hdiv : (v * Nat.pow b (n + 1) + w) / b = v * Nat.pow b n + w / b := by
      rw [hsplit, Nat.mul_add_div hb]
    have hmod : (v * Nat.pow b (n + 1) + w) % b = w % b := by
      rw [hsplit, Nat.mul_add_mod]
    have hrest : w / b < Nat.pow b n := by
      rw [hpow] at hw
      exact Nat.div_lt_of_lt_mul hw
    rw [← Nat.add_assoc, digits, hdiv, hmod, ih hrest, List.append_assoc]
    rfl

theorem Octets.ofNat_append (m n v : ℕ) {w : ℕ} (hw : w < 2 ^ (8 * n)) :
    Octets.ofNat (m + n) (v <<< (8 * n) + w) = Octets.ofNat m v ++ Octets.ofNat n w := by
  have hpow : 2 ^ (8 * n) = Nat.pow 256 n := by
    rw [pow_mul]
    rfl
  rw [hpow] at hw
  rw [ofNat, Nat.shiftLeft_eq, hpow, Radix.digits_append 256 m n v hw, List.map_append]
  rfl

theorem Octets.ofNat_one (b : BitVec 8) : Octets.ofNat 1 b.toNat = [UInt8.ofNat b.toNat] := by
  have hb : b.toNat % 256 = b.toNat := Nat.mod_eq_of_lt b.isLt
  simp only [Octets.ofNat, Radix.digits, hb, List.nil_append, List.map_cons, List.map_nil]

/-- A slice as the slices that tile it. -/
theorem Slice.read_of_tile {s : Slice} {ss : List Slice} (h : Tile (s.start + s.width) ss s.start)
    (u : Uuid) : (s.read u).toNat = gather ss u := by
  have hw : totalWidth ss = s.width := by
    have := totalWidth_of_tile h
    omega
  rw [gather_of_tile h, hw, ← Nat.shiftRight_eq_div_pow]
  rfl

/-- A slice of a larger slice that was written. -/
theorem Slice.read_write_within {s t : Slice} {k : ℕ} (ht : t.Fits) (hstart : s.start = t.start + k)
    (hwidth : k + s.width ≤ t.width) (u : Uuid) (v : BitVec t.width) :
    s.read (t.write u v) = v.extractLsb' k s.width := by
  refine BitVec.eq_of_getLsbD_eq fun i hi => ?_
  unfold Fits at ht
  have hin : s.start + i < 128 ∧ t.start ≤ s.start + i ∧ s.start + i < t.start + t.width := by
    omega
  have hat : s.start + i - t.start = k + i := by omega
  rw [read_bit, bit_write, if_pos hin, hat, BitVec.getLsbD_extractLsb']

namespace Uuid

theorem dvd_totalWidth {k : ℕ} {ss : List Slice} (h : ∀ s ∈ ss, k ∣ s.width) :
    k ∣ totalWidth ss := by
  induction ss with
  | nil => exact Nat.dvd_zero k
  | cons s ss ih =>
    have hrest : ∀ t ∈ ss, k ∣ t.width := fun t ht => h t (by simp [ht])
    rw [totalWidth_cons]
    exact Nat.dvd_add (h s (by simp)) (ih hrest)

theorem octets_of_gather {ss : List Slice} (h : ∀ s ∈ ss, 8 ∣ s.width) (u : Uuid) :
    Octets.ofNat (totalWidth ss / 8) (gather ss u) =
      ss.flatMap fun s => Octets.ofNat (s.width / 8) (s.read u).toNat := by
  induction ss with
  | nil => rfl
  | cons s ss ih =>
    have hrest : ∀ t ∈ ss, 8 ∣ t.width := fun t ht => h t (by simp [ht])
    have hwhole : 8 * (totalWidth ss / 8) = totalWidth ss :=
      Nat.mul_div_cancel' (dvd_totalWidth hrest)
    have hsum : (s.width + totalWidth ss) / 8 = s.width / 8 + totalWidth ss / 8 := by
      rw [← hwhole, Nat.add_mul_div_left _ _ (by decide), hwhole]
    have happend := Octets.ofNat_append (s.width / 8) (totalWidth ss / 8) (s.read u).toNat
      (w := gather ss u)
    rw [hwhole] at happend
    rw [gather_cons, totalWidth_cons, hsum, happend (gather_lt ss u), ih hrest, List.flatMap_cons]

/-- **Slices of whole octets hold the octets**, from the first to the last. -/
theorem octets_of_tile {ss : List Slice} (h : Tile 128 ss 0) (h8 : ∀ s ∈ ss, 8 ∣ s.width)
    (u : Uuid) : u.octets = ss.flatMap fun s => Octets.ofNat (s.width / 8) (s.read u).toNat := by
  have hw : totalWidth ss / 8 = 16 := by
    have := totalWidth_of_tile h
    omega
  rw [← octets_of_gather h8, hw, gather_of_full_tile h, octets]

end Uuid

/-! ## One slice of whole octets -/

namespace Slice

/-- A slice begins and ends between two octets. -/
structure WholeOctets (s : Slice) : Prop where
  fits : s.Fits
  start : 8 ∣ s.start
  width : 8 ∣ s.width

/-- How many octets come before a slice. -/
def firstOctet (s : Slice) : ℕ := (128 - (s.start + s.width)) / 8

/-- All bits above a slice. -/
def above (s : Slice) : Slice := ⟨s.start + s.width, 128 - (s.start + s.width)⟩

/-- All bits below a slice. -/
def below (s : Slice) : Slice := ⟨0, s.start⟩

variable {s : Slice}

/-- **The octets before a slice, its own and those after it.** -/
theorem octets_around (h : s.WholeOctets) (u : Uuid) : u.octets =
    Octets.ofNat s.firstOctet (s.above.read u).toNat ++
      (Octets.ofNat (s.width / 8) (s.read u).toNat ++
        Octets.ofNat (s.start / 8) (s.below.read u).toNat) := by
  have hfits := h.fits
  have hstart := h.start
  have hwidth := h.width
  unfold Fits at hfits
  have htile : Tile 128 [s.above, s, s.below] 0 := by
    refine ⟨?_, rfl, ?_, rfl⟩
    · unfold above
      dsimp only
      omega
    · exact Nat.zero_add _
  have hwhole : ∀ t ∈ [s.above, s, s.below], 8 ∣ t.width := by
    intro t ht
    simp only [List.mem_cons, List.not_mem_nil, or_false] at ht
    rcases ht with rfl | rfl | rfl
    · unfold above
      dsimp only
      omega
    · exact hwidth
    · exact hstart
  have hflat := Uuid.octets_of_tile htile hwhole u
  rw [List.flatMap_cons, List.flatMap_cons, List.flatMap_cons, List.flatMap_nil,
    List.append_nil] at hflat
  exact hflat

/-- **A slice is the number that its octets denote.** -/
theorem value_octets (h : s.WholeOctets) (u : Uuid) :
    Octets.value ((u.octets.drop s.firstOctet).take (s.width / 8)) = (s.read u).toNat := by
  have hpow : Nat.pow 256 (s.width / 8) = 2 ^ s.width := by
    have hbits : 8 * (s.width / 8) = s.width := Nat.mul_div_cancel' h.width
    calc Nat.pow 256 (s.width / 8) = (2 ^ 8) ^ (s.width / 8) := rfl
      _ = 2 ^ s.width := by rw [← pow_mul, hbits]
  rw [octets_around h, List.drop_left' (Octets.length_ofNat _ _),
    List.take_left' (Octets.length_ofNat _ _), Octets.value_ofNat, hpow]
  exact Nat.mod_eq_of_lt (s.read u).isLt

/-- **A write replaces the octets of its slice**, and no others. -/
theorem octets_write (h : s.WholeOctets) (u : Uuid) (v : BitVec s.width) :
    (s.write u v).octets = u.octets.take s.firstOctet ++
      (Octets.ofNat (s.width / 8) v.toNat ++ u.octets.drop (s.firstOctet + s.width / 8)) := by
  have habove : s.above.Apart s := Or.inr (Nat.le_refl _)
  have hbelow : s.below.Apart s := Or.inl (Nat.le_of_eq (Nat.zero_add _))
  have hafter : u.octets.drop (s.firstOctet + s.width / 8) =
      Octets.ofNat (s.start / 8) (s.below.read u).toNat := by
    rw [octets_around h u, ← List.append_assoc]
    apply List.drop_left'
    rw [List.length_append, Octets.length_ofNat, Octets.length_ofNat]
  have hbefore : u.octets.take s.firstOctet =
      Octets.ofNat s.firstOctet (s.above.read u).toNat := by
    rw [octets_around h u]
    exact List.take_left' (Octets.length_ofNat _ _)
  rw [octets_around h (s.write u v), read_write h.fits, read_write_of_apart habove,
    read_write_of_apart hbelow, hafter, hbefore]

end Slice

end UuidForge
