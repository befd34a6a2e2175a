import Mathlib.Data.List.Induction
import Mathlib.Tactic.Ring
import UuidForge.Proofs.State.RoundTrip

/-!
# The flags of a record

Six flags are known. Two of them mark a sequence for one domain each, in the low and in the high
half of the sequence word; where neither is set, a third one marks the low half for both domains.
The decoder looks at the whole upper half of the flags instead of the two, so a flag that nobody
knows can hide a joint sequence.

* `StateRecord.ruled`: the fields of a record by the known flags.
* `StateRecord.fieldsOf_eq`: **the fields that are read are those, or those without a sequence.**
* `StateRecord.precedence_iff`: when a record is read by the known flags, and when the other flags
  make no difference.
-/

namespace UuidForge

theorem Radix.value_append (b : ℕ) (xs ys : List ℕ) :
    value b (xs ++ ys) = value b xs * Nat.pow b ys.length + value b ys := by
  induction ys using List.reverseRecOn with
  | nil => simp [value]
  | append_singleton ys d ih =>
    have hp : Nat.pow b (ys.length + 1) = Nat.pow b ys.length * b := rfl
    rw [← List.append_assoc, value_append_singleton, ih, value_append_singleton,
      List.length_append, List.length_singleton, hp]
    ring

theorem Octets.valueLittle_append (xs ys : Octets) :
    Octets.valueLittle (xs ++ ys) =
      Octets.valueLittle xs + Nat.pow 256 xs.length * Octets.valueLittle ys := by
  simp only [valueLittle, value, List.reverse_append, List.map_append, Radix.value_append,
    List.length_map, List.length_reverse]
  ring

namespace StateRecord

variable {xs : Octets} {f : BitVec 32}

/-- The flags that are known. -/
def knownFlags : BitVec 32 := 0x3000f

/-- **The fields of a record by its known flags.** -/
def ruled (xs : Octets) : StateRecord :=
  let flags := wordAt xs 4
  let low : BitVec 16 := (wordAt xs 16).setWidth 16 &&& 0x3fff
  let high : BitVec 16 := (wordAt xs 16 >>> 16).setWidth 16 &&& 0x3fff
  let marked {α : Type} (flag : BitVec 32) (a : α) : Option α :=
    if flags &&& flag ≠ 0 then some a else none
  let independent := flags &&& 0x10000 ≠ 0 ∨ flags &&& 0x20000 ≠ 0
  { timestamp := marked 0x01 (Int64.ofBitVec (BitVec.ofNat 64 (numberAt xs 8 8)))
    physicalSequence := if independent then marked 0x10000 low else marked 0x02 low
    randomSequence := if independent then marked 0x20000 high else marked 0x02 low
    physicalNode := marked 0x04 (nodeAt xs 20)
    randomNode := marked 0x08 (nodeAt xs 26) }

/-- A joint sequence is hidden: its flag is set, and the upper half has flags, but not those of the
two sequences. -/
structure HidesJoint (flags : BitVec 32) : Prop where
  joint : flags &&& 0x02 ≠ 0
  physical : flags &&& 0x10000 = 0
  random : flags &&& 0x20000 = 0
  upper : flags >>> 16 ≠ 0

/-- A number and the one after it, read as one. -/
theorem numberAt_add {i m : ℕ} (h : i + m ≤ xs.length) (n : ℕ) :
    numberAt xs i (m + n) = numberAt xs i m + Nat.pow 256 m * numberAt xs (i + m) n := by
  have hl : ((xs.drop i).take m).length = m := by
    rw [List.length_take, List.length_drop]
    omega
  rw [numberAt, List.take_add, Octets.valueLittle_append, hl, List.drop_drop]
  rfl

theorem sequenceAt_eq (xs : Octets) (i : ℕ) :
    sequenceAt xs i = BitVec.ofNat 16 (numberAt xs i 2) &&& 0x3fff := by
  rw [← setWidth_fourteen_eq_and, sequenceAt]
  congr 1
  apply BitVec.eq_of_toNat_eq
  simp

/-- **The two sequences are the halves of one word.** -/
theorem sequenceAt_halves (h : size ≤ xs.length) :
    sequenceAt xs 16 = (wordAt xs 16).setWidth 16 &&& 0x3fff ∧
      sequenceAt xs 18 = (wordAt xs 16 >>> 16).setWidth 16 &&& 0x3fff := by
  have hs : numberAt xs 16 4 = numberAt xs 16 2 + 65536 * numberAt xs 18 2 :=
    numberAt_add (by unfold size at h; omega) 2
  have hlow : numberAt xs 16 2 < 65536 := numberAt_lt xs 16 2
  rw [sequenceAt_eq, sequenceAt_eq]
  constructor
  · congr 1
    apply BitVec.eq_of_toNat_eq
    rw [BitVec.toNat_setWidth, toNat_wordAt, BitVec.toNat_ofNat, hs]
    omega
  · congr 1
    apply BitVec.eq_of_toNat_eq
    rw [BitVec.toNat_setWidth, BitVec.toNat_ushiftRight, toNat_wordAt, BitVec.toNat_ofNat, hs,
      Nat.shiftRight_eq_div_pow]
    omega

/-- A flag is a bit of the number that the decoder reads. -/
theorem testBit_flags_iff (xs : Octets) {k : ℕ} (hk : k < 32) :
    (numberAt xs 4 4).testBit k = true ↔ wordAt xs 4 &&& BitVec.twoPow 32 k ≠ 0 := by
  rw [and_twoPow_ne_zero_iff hk, wordAt, BitVec.getLsbD_ofNat, decide_eq_true hk, Bool.true_and]

theorem upper_iff (xs : Octets) : numberAt xs 4 4 >>> 16 ≠ 0 ↔ wordAt xs 4 >>> 16 ≠ 0 := by
  rw [← toNat_wordAt, ← BitVec.toNat_ushiftRight]
  exact not_congr (BitVec.toNat_inj (y := 0))

/-- Without a flag in the upper half there is none of the two sequences. -/
theorem no_sequence_of_upper {flags : BitVec 32} (h : flags >>> 16 = 0) :
    flags &&& 0x10000 = 0 ∧ flags &&& 0x20000 = 0 := by
  have hb : ∀ k, 16 ≤ k → k < 32 → flags &&& BitVec.twoPow 32 k = 0 := by
    intro k hk hlt
    by_contra hne
    have hbit := (and_twoPow_ne_zero_iff hlt flags).1 hne
    have hzero : (flags >>> 16).getLsbD (k - 16) = false := by simp [h]
    rw [BitVec.getLsbD_ushiftRight, Nat.add_sub_cancel' hk, hbit] at hzero
    cases hzero
  exact ⟨hb 16 (by decide) (by decide), hb 17 (by decide) (by decide)⟩

/-- **The fields that are read are those of the known flags**, or those without a sequence where a
joint sequence is hidden. -/
theorem fieldsOf_eq (h : size ≤ xs.length) :
    (¬ HidesJoint (wordAt xs 4) → fieldsOf xs = ruled xs) ∧
      (HidesJoint (wordAt xs 4) →
        fieldsOf xs = { ruled xs with physicalSequence := none, randomSequence := none }) := by
  obtain ⟨hlow, hhigh⟩ := sequenceAt_halves h
  -- the decoder tests bits of a number, the rule masks a word
  have b0 : (numberAt xs 4 4).testBit timestampFlag = true ↔ wordAt xs 4 &&& 0x01 ≠ 0 :=
    testBit_flags_iff xs (by decide)
  have b1 : (numberAt xs 4 4).testBit jointFlag = true ↔ wordAt xs 4 &&& 0x02 ≠ 0 :=
    testBit_flags_iff xs (by decide)
  have b2 : (numberAt xs 4 4).testBit physicalNodeFlag = true ↔ wordAt xs 4 &&& 0x04 ≠ 0 :=
    testBit_flags_iff xs (by decide)
  have b3 : (numberAt xs 4 4).testBit randomNodeFlag = true ↔ wordAt xs 4 &&& 0x08 ≠ 0 :=
    testBit_flags_iff xs (by decide)
  have b16 : (numberAt xs 4 4).testBit physicalSequenceFlag = true ↔
      wordAt xs 4 &&& 0x10000 ≠ 0 := testBit_flags_iff xs (by decide)
  have b17 : (numberAt xs 4 4).testBit randomSequenceFlag = true ↔
      wordAt xs 4 &&& 0x20000 ≠ 0 := testBit_flags_iff xs (by decide)
  by_cases hu : numberAt xs 4 4 >>> 16 ≠ 0
  · by_cases hi : wordAt xs 4 &&& 0x10000 ≠ 0 ∨ wordAt xs 4 &&& 0x20000 ≠ 0
    · refine ⟨fun _ => ?_, fun hj => absurd hi ?_⟩
      · simp only [fieldsOf, ruled, b0, b2, b3, b16, b17, hlow, hhigh, if_pos hu, if_pos hi]
      · exact fun hi => hi.elim (fun hp => hp hj.physical) fun hr => hr hj.random
    · -- the sequences have no flag of their own, and the joint one is not looked at
      rw [not_or, not_not, not_not] at hi
      obtain ⟨hp, hr⟩ := hi
      have hread : fieldsOf xs =
          { ruled xs with physicalSequence := none, randomSequence := none } := by
        simp only [fieldsOf, ruled, b0, b2, b3, b16, b17, hp, hr, if_pos hu, ne_eq,
          not_true_eq_false, if_false]
      refine ⟨fun hj => ?_, fun _ => hread⟩
      have hb : wordAt xs 4 &&& 0x02 = 0 := by
        by_contra hb
        exact hj ⟨hb, hp, hr, (upper_iff xs).1 hu⟩
      rw [hread]
      simp only [ruled, hp, hr, hb, ne_eq, not_true_eq_false, or_self, if_false]
  · refine ⟨fun _ => ?_, fun hj => absurd ((upper_iff xs).2 hj.upper) hu⟩
    obtain ⟨hp, hr⟩ := no_sequence_of_upper (not_not.1 fun hne => hu ((upper_iff xs).2 hne))
    simp only [fieldsOf, ruled, b0, b1, b2, b3, if_neg hu, hp, hr, hlow, ne_eq,
      not_true_eq_false, or_self, if_false]

/-! ## Other flags in the same file -/

/-- A file with other flags in place of its own. -/
def withFlags (xs : Octets) (f : BitVec 32) : Octets :=
  xs.take 4 ++ Octets.ofNatLittle 4 f.toNat ++ xs.drop 8

theorem length_withFlags (h : size ≤ xs.length) (f : BitVec 32) :
    (withFlags xs f).length = xs.length := by
  unfold size at h
  simp only [withFlags, List.length_append, List.length_take, List.length_drop,
    Octets.length_ofNatLittle]
  omega

/-- The flags are written where they are read. -/
theorem wordAt_withFlags (h : size ≤ xs.length) (f : BitVec 32) :
    wordAt (withFlags xs f) 4 = f := by
  unfold size at h
  have hl : (xs.take 4).length = 4 := by
    rw [List.length_take]
    omega
  have hn : numberAt (withFlags xs f) 4 4 = f.toNat := numberAt_of_eq rfl hl f.isLt
  rw [wordAt, hn, BitVec.ofNat_toNat, BitVec.setWidth_eq]

/-- Nothing else is changed. -/
theorem drop_withFlags (h : size ≤ xs.length) (f : BitVec 32) {i : ℕ} (hi : 8 ≤ i) :
    (withFlags xs f).drop i = xs.drop i := by
  unfold size at h
  have hl : (xs.take 4 ++ Octets.ofNatLittle 4 f.toNat).length = 8 := by
    rw [List.length_append, List.length_take, Octets.length_ofNatLittle]
    omega
  rw [withFlags, List.drop_append, hl, List.drop_drop, List.drop_eq_nil_of_le (by omega),
    List.nil_append, Nat.add_sub_cancel' hi]

theorem numberAt_withFlags (h : size ≤ xs.length) (f : BitVec 32) :
    numberAt (withFlags xs f) 0 4 = numberAt xs 0 4 ∧
      ∀ i n, 8 ≤ i → numberAt (withFlags xs f) i n = numberAt xs i n := by
  unfold size at h
  have hl : (xs.take 4).length = 4 := by
    rw [List.length_take]
    omega
  constructor
  · rw [numberAt, numberAt, List.drop_zero, List.drop_zero, withFlags, List.append_assoc,
      List.take_left' hl]
  · intro i n hi
    rw [numberAt, drop_withFlags h f hi, numberAt]

/-- **The rule reads nothing of the flags but the known ones.** -/
theorem ruled_withFlags (h : size ≤ xs.length)
    (hf : f &&& knownFlags = wordAt xs 4 &&& knownFlags) :
    ruled (withFlags xs f) = ruled xs := by
  have hm : ∀ m : BitVec 32, knownFlags &&& m = m → f &&& m = wordAt xs 4 &&& m := by
    intro m hm
    rw [← hm, ← BitVec.and_assoc, hf, BitVec.and_assoc]
  have hn := (numberAt_withFlags h f).2
  have hnode : ∀ i, 8 ≤ i → nodeAt (withFlags xs f) i = nodeAt xs i := by
    intro i hi
    rw [nodeAt, drop_withFlags h f hi, nodeAt]
  have hw : wordAt (withFlags xs f) 16 = wordAt xs 16 := by
    rw [wordAt, hn 16 4 (by decide), wordAt]
  simp only [ruled, wordAt_withFlags h f, hw, hn 8 8 (by decide), hnode 20 (by decide),
    hnode 26 (by decide), hm 0x01 rfl, hm 0x02 rfl, hm 0x04 rfl, hm 0x08 rfl, hm 0x10000 rfl,
    hm 0x20000 rfl]

/-- A joint sequence that is hidden is missed. -/
theorem ruled_ne_of_hidesJoint (xs : Octets) (hj : HidesJoint (wordAt xs 4)) :
    { ruled xs with physicalSequence := none, randomSequence := none } ≠ ruled xs := by
  intro he
  have hs : (ruled xs).physicalSequence.isSome := by
    simp only [ruled, hj.physical, hj.random, hj.joint, ne_eq, not_true_eq_false,
      not_false_eq_true, or_self, if_false, if_true, Option.isSome_some]
  rw [← congrArg StateRecord.physicalSequence he] at hs
  cases hs

/-- What is read from a record, told by its rule. -/
theorem decode_of_complete (h : size ≤ xs.length) (ht : numberAt xs 0 4 = tag) :
    (¬ HidesJoint (wordAt xs 4) → decode xs = .ok (ruled xs)) ∧
      (HidesJoint (wordAt xs 4) →
        decode xs = .ok { ruled xs with physicalSequence := none, randomSequence := none }) := by
  have hd : decode xs = .ok (fieldsOf xs) := decode_eq_ok_iff.2 ⟨h, ht, rfl⟩
  obtain ⟨hn, hj⟩ := fieldsOf_eq h
  exact ⟨fun hs => hd.trans (congrArg _ (hn hs)), fun hs => hd.trans (congrArg _ (hj hs))⟩

/-- **When the known flags decide.** For every file with the tag and the octets of a record, and for
every word of flags and of sequences in it: the record is read by the rule of the known flags
exactly if no joint sequence is hidden, and otherwise without any sequence. Other flags in place of
its own, with the same known ones, change no field exactly if both words of flags hide a joint
sequence or neither does. -/
theorem precedence_iff (h : size ≤ xs.length) (ht : numberAt xs 0 4 = tag) :
    (decode xs = .ok (ruled xs) ↔ ¬ HidesJoint (wordAt xs 4)) ∧
    (HidesJoint (wordAt xs 4) →
      decode xs = .ok { ruled xs with physicalSequence := none, randomSequence := none }) ∧
    ∀ f : BitVec 32, f &&& knownFlags = wordAt xs 4 &&& knownFlags →
      (decode (withFlags xs f) = decode xs ↔ (HidesJoint f ↔ HidesJoint (wordAt xs 4))) := by
  obtain ⟨hplain, hhid⟩ := decode_of_complete h ht
  refine ⟨⟨fun hd hj => ?_, hplain⟩, hhid, fun f hf => ?_⟩
  · rw [hhid hj, Except.ok.injEq] at hd
    exact ruled_ne_of_hidesJoint xs hj hd
  · have h' : size ≤ (withFlags xs f).length := by rwa [length_withFlags h]
    have ht' : numberAt (withFlags xs f) 0 4 = tag := (numberAt_withFlags h f).1.trans ht
    obtain ⟨hplain', hhid'⟩ := decode_of_complete h' ht'
    have hne := ruled_ne_of_hidesJoint (withFlags xs f)
    rw [wordAt_withFlags h, ruled_withFlags h hf] at hplain' hhid' hne
    -- the two readings agree exactly if the same of the two cases is met
    by_cases hj' : HidesJoint f
    · by_cases hj : HidesJoint (wordAt xs 4)
      · rw [hhid' hj', hhid hj]
        simp [hj', hj]
      · rw [hhid' hj', hplain hj, Except.ok.injEq]
        simp [hj', hj, hne hj']
    · by_cases hj : HidesJoint (wordAt xs 4)
      · rw [hplain' hj', hhid hj, Except.ok.injEq]
        simp [hj', hj, (ruled_ne_of_hidesJoint xs hj).symm]
      · rw [hplain' hj', hplain hj]
        simp [hj', hj]

/-- A record with a joint sequence and a flag that nobody knows. -/
def crowded : Octets :=
  Octets.ofNatLittle 4 tag ++ Octets.ofNatLittle 4 0x40002 ++ Octets.ofNatLittle 8 0 ++
    Octets.ofNatLittle 4 42 ++ List.replicate 12 0

/-- **A joint sequence is hidden** by a flag that nobody knows, and is read without it. -/
theorem joint_hidden : crowded.length = size ∧ numberAt crowded 0 4 = tag ∧
    decode crowded = .ok {} ∧
    ruled crowded = { physicalSequence := some 42, randomSequence := some 42 } ∧
    decode (withFlags crowded 0x02) =
      .ok { physicalSequence := some 42, randomSequence := some 42 } := by
  decide

/-- Another unknown flag hides it as well, and without any it is read. -/
theorem precedence_iff_crowded :
    decode crowded ≠ .ok (ruled crowded) ∧ decode (withFlags crowded 0x80000002) = decode crowded ∧
      decode (withFlags crowded 0x02) ≠ decode crowded := by
  have hj : HidesJoint (wordAt crowded 4) := ⟨by decide, by decide, by decide, by decide⟩
  have hj' : HidesJoint 0x80000002 := ⟨by decide, by decide, by decide, by decide⟩
  have hn : ¬ HidesJoint 0x02 := fun hn => hn.upper rfl
  obtain ⟨hiff, -, hother⟩ := precedence_iff (by decide : size ≤ crowded.length) (by decide)
  refine ⟨fun hd => hiff.1 hd hj, (hother _ (by decide)).2 (iff_of_true hj' hj), fun hd => ?_⟩
  exact hn (((hother _ (by decide)).1 hd).2 hj)

end StateRecord

end UuidForge
