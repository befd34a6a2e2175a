import UuidForge.Proofs.Uuid.Gather

/-!
# Lenses on the bits of a UUID

A component of a UUID sits in some slices: it can be read, and written with values that it accepts,
of which it may keep a part only. It is a lens if reading and writing fit together and nothing
happens outside its slices.

* `Lens.get_of_agree`: what touches none of the slices does not change the component.
* `Lens.set_of_agree`: **two UUIDs that differ in the slices of a lens only are one write apart.**
* `Lens.of_slice`, `Lens.of_mask`: a slice is a lens, and so are the bits under a mask.
-/

namespace UuidForge

namespace Slice

/-- Bit `i` belongs to the slice. -/
def Covers (s : Slice) (i : ℕ) : Prop := s.start ≤ i ∧ i < s.start + s.width

instance (s : Slice) (i : ℕ) : Decidable (s.Covers i) := inferInstanceAs (Decidable (_ ∧ _))

/-- The slice of one bit. -/
abbrev bit (i : ℕ) : Slice := ⟨i, 1⟩

theorem bit_apart_iff {s : Slice} {i : ℕ} : (bit i).Apart s ↔ ¬ s.Covers i := by
  unfold Apart Covers
  dsimp only
  omega

theorem not_covers_of_apart {s t : Slice} (h : s.Apart t) {i : ℕ} (hi : s.Covers i) :
    ¬ t.Covers i := by
  unfold Apart at h
  unfold Covers at hi ⊢
  omega

theorem read_eq_read_iff {s : Slice} {u v : Uuid} : s.read u = s.read v ↔
    ∀ i, s.Covers i → u.bits.getLsbD i = v.bits.getLsbD i := by
  constructor
  · rintro h i ⟨hlo, hhi⟩
    have hlt : i - s.start < s.width := by omega
    have hi : s.start + (i - s.start) = i := by omega
    have hb := congrArg (BitVec.getLsbD · (i - s.start)) h
    simpa only [read_bit, hlt, hi, decide_true, Bool.true_and] using hb
  · intro h
    refine BitVec.eq_of_getLsbD_eq fun i hi => ?_
    rw [read_bit, read_bit, h _ ⟨by omega, by omega⟩]

theorem read_bit_eq_iff {i : ℕ} {u v : Uuid} : (bit i).read u = (bit i).read v ↔
    u.bits.getLsbD i = v.bits.getLsbD i := by
  rw [read_eq_read_iff]
  constructor
  · intro h
    exact h i ⟨Nat.le_refl i, Nat.lt_succ_self i⟩
  · rintro h j ⟨hlo, hhi⟩
    have : j = i := Nat.le_antisymm (Nat.lt_succ_iff.1 hhi) hlo
    rwa [this]

theorem maskOf_bit (ss : List Slice) {i : ℕ} (hi : i < 128) :
    (maskOf ss).getLsbD i = true ↔ ∃ s ∈ ss, s.Covers i := by
  have hfold : ∀ m : BitVec 128, (ss.foldl (fun m s => m ||| s.mask) m).getLsbD i = true ↔
      m.getLsbD i = true ∨ ∃ s ∈ ss, s.Covers i := by
    induction ss with
    | nil => simp
    | cons s ss ih =>
      intro m
      have hs : s.mask.getLsbD i = true ↔ s.Covers i := by
        rw [mask_bit, decide_eq_true_iff, Covers]
        omega
      rw [List.foldl_cons, ih, BitVec.getLsbD_or, Bool.or_eq_true, hs, or_assoc]
      simp
  rw [maskOf, hfold]
  simp

end Slice

theorem Uuid.ext_bits {u v : Uuid} (h : ∀ i < 128, u.bits.getLsbD i = v.bits.getLsbD i) :
    u = v := by
  cases u
  cases v
  exact congrArg Uuid.mk (BitVec.eq_of_getLsbD_eq h)

/-- A component in the slices `ss`, with the values that it accepts and what it keeps of them. -/
structure Lens {α : Type} (ss : List Slice) (get : Uuid → Except Error α)
    (set : Uuid → α → Except Error Uuid) (accepts : α → Prop) (kept : α → α) : Prop where
  /-- The component is what the slices hold. -/
  get_eq_get_iff : ∀ u v, get u = get v ↔ ∀ s ∈ ss, s.read u = s.read v
  /-- A write succeeds exactly with a value that is accepted. -/
  set_ok_iff : ∀ u a, (∃ u', set u a = .ok u') ↔ accepts a
  /-- A write changes nothing that lies apart from the slices. -/
  read_set : ∀ u a u', set u a = .ok u' → ∀ t : Slice, (∀ s ∈ ss, t.Apart s) → t.read u' = t.read u
  /-- What is read after a write is what the component keeps of the value. -/
  get_set : ∀ u a u', set u a = .ok u' → get u' = .ok (kept a)
  /-- Writing what was read changes nothing. -/
  set_get : ∀ u, ∃ a, get u = .ok a ∧ set u a = .ok u

namespace Lens

variable {α : Type} {ss : List Slice} {get : Uuid → Except Error α}
  {set : Uuid → α → Except Error Uuid} {accepts : α → Prop} {kept : α → α}

theorem get_of_agree (h : Lens ss get set accepts kept) {u v : Uuid}
    (huv : ∀ s ∈ ss, s.read u = s.read v) : get u = get v :=
  (h.get_eq_get_iff u v).2 huv

/-- **Two UUIDs that differ in the slices of a lens only are one write apart.** -/
theorem set_of_agree (h : Lens ss get set accepts kept) {u v : Uuid}
    (huv : ∀ t : Slice, (∀ s ∈ ss, t.Apart s) → t.read u = t.read v) :
    ∃ a, get v = .ok a ∧ set u a = .ok v := by
  obtain ⟨a, ha, hv⟩ := h.set_get v
  obtain ⟨u', hu⟩ := (h.set_ok_iff u a).2 ((h.set_ok_iff v a).1 ⟨v, hv⟩)
  -- both writes leave the same behind, inside the slices and outside
  have hin : ∀ s ∈ ss, s.read u' = s.read v :=
    (h.get_eq_get_iff u' v).1 ((h.get_set u a u' hu).trans (h.get_set v a v hv).symm)
  have heq : u' = v := by
    refine Uuid.ext_bits fun i _ => ?_
    by_cases hi : ∃ s ∈ ss, s.Covers i
    · obtain ⟨s, hs, hi⟩ := hi
      exact Slice.read_eq_read_iff.1 (hin s hs) i hi
    · have hout : ∀ s ∈ ss, (Slice.bit i).Apart s :=
        fun s hs => Slice.bit_apart_iff.2 fun hc => hi ⟨s, hs, hc⟩
      exact Slice.read_bit_eq_iff.1 ((h.read_set u a u' hu _ hout).trans (huv _ hout))
  exact ⟨a, ha, heq ▸ hu⟩

/-- **A slice is a lens** for values that its bits encode. -/
theorem of_slice {s : Slice} (hs : s.Fits) {d : BitVec s.width → α} {e : α → BitVec s.width}
    (hget : ∀ u, get u = .ok (d (s.read u)))
    (hset : ∀ u a, accepts a → set u a = .ok (s.write u (e a)))
    (hno : ∀ u a u', set u a = .ok u' → accepts a)
    (hd : ∀ b, accepts (d b) ∧ e (d b) = b) (he : ∀ a, accepts a → d (e a) = a) :
    Lens [s] get set accepts id where
  get_eq_get_iff u v := by
    rw [hget, hget, List.forall_mem_singleton, Except.ok.injEq]
    refine ⟨fun h => ?_, congrArg d⟩
    rw [← (hd (s.read u)).2, h, (hd (s.read v)).2]
  set_ok_iff u a := by
    refine ⟨?_, fun ha => ⟨_, hset u a ha⟩⟩
    rintro ⟨u', h⟩
    exact hno u a u' h
  read_set u a u' h t ht := by
    rw [hset u a (hno u a u' h)] at h
    cases h
    exact Slice.read_write_of_apart (ht s (by simp)) _ _
  get_set u a u' h := by
    have ha := hno u a u' h
    rw [hset u a ha] at h
    cases h
    rw [hget, Slice.read_write hs, he a ha, id]
  set_get u := by
    obtain ⟨ha, hb⟩ := hd (s.read u)
    refine ⟨_, hget u, ?_⟩
    rw [hset u _ ha, hb, Slice.write_read]

/-- **The bits under a mask are a lens**, which keeps the bits of a value under the mask. -/
theorem of_mask {get : Uuid → Except Error Uuid} {set : Uuid → Uuid → Except Error Uuid}
    {kept : Uuid → Uuid} (hget : ∀ u, get u = .ok (kept u))
    (hset : ∀ u a, set u a = .ok ⟨blend u.bits a.bits (maskOf ss)⟩)
    (hkept : ∀ a, kept a = ⟨a.bits &&& maskOf ss⟩) :
    Lens ss get set (fun _ => True) kept where
  get_eq_get_iff u v := by
    rw [hget, hget, hkept, hkept, Except.ok.injEq, Uuid.mk.injEq]
    constructor
    · intro h s hs
      refine Slice.read_eq_read_iff.2 fun i hi => ?_
      by_cases h128 : i < 128
      · have hm := (Slice.maskOf_bit ss h128).2 ⟨s, hs, hi⟩
        have hb := congrArg (BitVec.getLsbD · i) h
        simpa only [BitVec.getLsbD_and, hm, Bool.and_true] using hb
      · rw [BitVec.getLsbD_of_ge _ _ (by omega), BitVec.getLsbD_of_ge _ _ (by omega)]
    · intro h
      refine BitVec.eq_of_getLsbD_eq fun i hi => ?_
      rw [BitVec.getLsbD_and, BitVec.getLsbD_and]
      cases hm : (maskOf ss).getLsbD i with
      | false => rw [Bool.and_false, Bool.and_false]
      | true =>
        obtain ⟨s, hs, hi⟩ := (Slice.maskOf_bit ss hi).1 hm
        rw [Slice.read_eq_read_iff.1 (h s hs) i hi]
  set_ok_iff u a := ⟨fun _ => trivial, fun _ => ⟨_, hset u a⟩⟩
  read_set u a u' h t ht := by
    rw [hset] at h
    cases h
    refine Slice.read_eq_read_iff.2 fun i hi => ?_
    dsimp only
    rw [blend_bit, if_neg]
    intro hm
    by_cases h128 : i < 128
    · obtain ⟨s, hs, hc⟩ := (Slice.maskOf_bit ss h128).1 hm
      exact Slice.not_covers_of_apart (ht s hs) hi hc
    · rw [BitVec.getLsbD_of_ge _ _ (by omega)] at hm
      cases hm
  get_set u a u' h := by
    rw [hset] at h
    cases h
    rw [hget, hkept, hkept]
    refine congrArg Except.ok (Uuid.ext_bits fun i _ => ?_)
    dsimp only
    rw [BitVec.getLsbD_and, BitVec.getLsbD_and, blend_bit]
    cases (maskOf ss).getLsbD i <;> simp
  set_get u := by
    refine ⟨_, hget u, ?_⟩
    rw [hset, hkept]
    refine congrArg Except.ok (Uuid.ext_bits fun i _ => ?_)
    dsimp only
    rw [blend_bit, BitVec.getLsbD_and]
    cases (maskOf ss).getLsbD i <;> simp

end Lens

end UuidForge
