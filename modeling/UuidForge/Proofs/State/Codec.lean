import Mathlib.Data.Nat.Bitwise
import UuidForge.State.Record

/-!
# Records survive their encoding

* `StateRecord.numberAt_append`: a number is read back from its place.
* `StateRecord.flags_bits`: the flags tell which fields are present, and whether there is one
  sequence for each domain.
* `StateRecord.decode_eq_ok_iff`: which files are read, and as what.
* `StateRecord.masked_of_decode`: what is read has sequences of 14 bits already.
* `StateRecord.decode_encode_eq`: **a record is read back with its sequences cut to 14 bits.**
-/

namespace UuidForge

theorem Octets.valueLittle_ofNatLittle (n v : ℕ) :
    Octets.valueLittle (Octets.ofNatLittle n v) = v % Nat.pow 256 n := by
  rw [valueLittle, ofNatLittle, List.reverse_reverse, value_ofNat]

/-- Octets are the writing of the little-endian number that they denote. -/
theorem Octets.ofNatLittle_valueLittle (xs : Octets) :
    Octets.ofNatLittle xs.length (Octets.valueLittle xs) = xs := by
  have h := Octets.ofNat_value xs.reverse
  rw [List.length_reverse] at h
  rw [ofNatLittle, valueLittle, h, List.reverse_reverse]

theorem Octets.valueLittle_lt (xs : Octets) : Octets.valueLittle xs < Nat.pow 256 xs.length := by
  rw [← Octets.ofNatLittle_valueLittle xs, Octets.valueLittle_ofNatLittle,
    Octets.length_ofNatLittle]
  exact Nat.mod_lt _ (Nat.pow_pos (by decide))

namespace StateRecord

/-- The record with its sequences cut to 14 bits. -/
def masked (r : StateRecord) : StateRecord :=
  { r with
    physicalSequence := r.physicalSequence.map fun n => (n.setWidth 14).setWidth 16
    randomSequence := r.randomSequence.map fun n => (n.setWidth 14).setWidth 16 }

theorem take_drop_of_eq {xs front part back : Octets} {i n : ℕ} (he : xs = front ++ part ++ back)
    (hi : front.length = i) (hn : part.length = n) : (xs.drop i).take n = part := by
  subst he hi hn
  simp

/-- **A number is read back from its place.** -/
theorem numberAt_of_eq {xs front back : Octets} {i n v : ℕ}
    (he : xs = front ++ Octets.ofNatLittle n v ++ back) (hi : front.length = i)
    (hv : v < Nat.pow 256 n) : numberAt xs i n = v := by
  rw [numberAt, take_drop_of_eq he hi (Octets.length_ofNatLittle n v),
    Octets.valueLittle_ofNatLittle, Nat.mod_eq_of_lt hv]

theorem nodeAt_of_eq {xs front back : Octets} {i : ℕ} {n : NodeId}
    (he : xs = front ++ n.octets ++ back) (hi : front.length = i) : nodeAt xs i = n := by
  rw [nodeAt, take_drop_of_eq he hi (by simp [NodeId.octets]), NodeId.ofOctets, NodeId.octets,
    Octets.value_ofNat, Nat.mod_eq_of_lt n.isLt, BitVec.ofNat_toNat, BitVec.setWidth_eq]

/-- The little-endian word of 32 bits from offset `i`. -/
def wordAt (xs : Octets) (i : ℕ) : BitVec 32 := BitVec.ofNat 32 (numberAt xs i 4)

theorem numberAt_lt (xs : Octets) (i n : ℕ) : numberAt xs i n < Nat.pow 256 n := by
  have hl : ((xs.drop i).take n).length ≤ n := List.length_take_le _ _
  exact Nat.lt_of_lt_of_le (Octets.valueLittle_lt _) (Nat.pow_le_pow_right (by decide) hl)

theorem toNat_wordAt (xs : Octets) (i : ℕ) : (wordAt xs i).toNat = numberAt xs i 4 :=
  Nat.mod_eq_of_lt (numberAt_lt xs i 4)

/-- The flags as a number of five bits. -/
def flagsOf (timestamp physicalNode randomNode physicalSequence randomSequence : Bool) : ℕ :=
  timestamp.toNat * 1 + physicalNode.toNat * 4 + randomNode.toNat * 8 +
    physicalSequence.toNat * 65536 + randomSequence.toNat * 131072

theorem flags_eq (r : StateRecord) : r.flags = flagsOf r.timestamp.isSome r.physicalNode.isSome
    r.randomNode.isSome r.physicalSequence.isSome r.randomSequence.isSome := by
  have hb : ∀ {α : Type} (o : Option α) (k : ℕ), flagBit o k = o.isSome.toNat * 1 <<< k := by
    intro α o k
    cases o <;> simp [flagBit]
  simp only [flags, hb]
  rfl

/-- **The flags tell which fields are present.** -/
theorem flags_bits : ∀ a b c d e : Bool,
    flagsOf a b c d e < 4294967296 ∧ (flagsOf a b c d e).testBit timestampFlag = a ∧
      (flagsOf a b c d e).testBit jointFlag = false ∧
      (flagsOf a b c d e).testBit physicalNodeFlag = b ∧
      (flagsOf a b c d e).testBit randomNodeFlag = c ∧
      (flagsOf a b c d e).testBit physicalSequenceFlag = d ∧
      (flagsOf a b c d e).testBit randomSequenceFlag = e ∧
      (flagsOf a b c d e >>> 16 ≠ 0 ↔ d = true ∨ e = true) := by
  decide

/-! ## The parts of an encoded record -/

variable (r : StateRecord)

/-- The tag and the flags. -/
def headOctets : Octets := Octets.ofNatLittle 4 tag ++ Octets.ofNatLittle 4 r.flags

/-- The timestamp. -/
def timeOctets : Octets := Octets.ofNatLittle 8 (r.timestamp.getD 0).toUInt64.toNat

/-- The two sequences. -/
def sequenceOctets : Octets :=
  Octets.ofNatLittle 2 (r.physicalSequence.getD 0).toNat ++
    Octets.ofNatLittle 2 (r.randomSequence.getD 0).toNat

/-- The two node ids. -/
def nodeOctets : Octets := (r.physicalNode.getD 0).octets ++ (r.randomNode.getD 0).octets

theorem encode_eq :
    r.encode = r.headOctets ++ r.timeOctets ++ r.sequenceOctets ++ r.nodeOctets := by
  simp only [encode, headOctets, timeOctets, sequenceOctets, nodeOctets, List.append_assoc]

@[simp] theorem length_headOctets : r.headOctets.length = 8 := by simp [headOctets]

@[simp] theorem length_timeOctets : r.timeOctets.length = 8 := by simp [timeOctets]

@[simp] theorem length_sequenceOctets : r.sequenceOctets.length = 4 := by simp [sequenceOctets]

theorem head_encode : numberAt r.encode 0 4 = tag ∧ numberAt r.encode 4 4 = r.flags := by
  have ht : r.encode = [] ++ Octets.ofNatLittle 4 tag ++
      (Octets.ofNatLittle 4 r.flags ++ r.timeOctets ++ r.sequenceOctets ++ r.nodeOctets) := by
    simp only [encode_eq, headOctets, List.append_assoc, List.nil_append]
  have hf : r.encode = Octets.ofNatLittle 4 tag ++ Octets.ofNatLittle 4 r.flags ++
      (r.timeOctets ++ r.sequenceOctets ++ r.nodeOctets) := by
    simp only [encode_eq, headOctets, List.append_assoc]
  have hflags : r.flags < Nat.pow 256 4 := by
    rw [flags_eq]
    exact (flags_bits _ _ _ _ _).1
  exact ⟨numberAt_of_eq ht rfl (by decide), numberAt_of_eq hf (by simp) hflags⟩

theorem time_encode : numberAt r.encode 8 8 = (r.timestamp.getD 0).toUInt64.toNat := by
  have ht : r.encode = r.headOctets ++ Octets.ofNatLittle 8 (r.timestamp.getD 0).toUInt64.toNat ++
      (r.sequenceOctets ++ r.nodeOctets) := by
    simp only [encode_eq, timeOctets, List.append_assoc]
  exact numberAt_of_eq ht (by simp) (UInt64.toNat_lt _)

theorem sequences_encode : numberAt r.encode 16 2 = (r.physicalSequence.getD 0).toNat ∧
    numberAt r.encode 18 2 = (r.randomSequence.getD 0).toNat := by
  have hp : r.encode = (r.headOctets ++ r.timeOctets) ++
      Octets.ofNatLittle 2 (r.physicalSequence.getD 0).toNat ++
      (Octets.ofNatLittle 2 (r.randomSequence.getD 0).toNat ++ r.nodeOctets) := by
    simp only [encode_eq, sequenceOctets, List.append_assoc]
  have hr : r.encode = (r.headOctets ++ r.timeOctets ++
      Octets.ofNatLittle 2 (r.physicalSequence.getD 0).toNat) ++
      Octets.ofNatLittle 2 (r.randomSequence.getD 0).toNat ++ r.nodeOctets := by
    simp only [encode_eq, sequenceOctets, List.append_assoc]
  exact ⟨numberAt_of_eq hp (by simp) (BitVec.isLt _), numberAt_of_eq hr (by simp) (BitVec.isLt _)⟩

theorem nodes_encode : nodeAt r.encode 20 = r.physicalNode.getD 0 ∧
    nodeAt r.encode 26 = r.randomNode.getD 0 := by
  have hp : r.encode = (r.headOctets ++ r.timeOctets ++ r.sequenceOctets) ++
      (r.physicalNode.getD 0).octets ++ (r.randomNode.getD 0).octets := by
    simp only [encode_eq, nodeOctets, List.append_assoc]
  have hr : r.encode = (r.headOctets ++ r.timeOctets ++ r.sequenceOctets ++
      (r.physicalNode.getD 0).octets) ++ (r.randomNode.getD 0).octets ++ [] := by
    simp only [encode_eq, nodeOctets, List.append_assoc, List.append_nil]
  exact ⟨nodeAt_of_eq hp (by simp), nodeAt_of_eq hr (by simp [NodeId.octets])⟩

/-! ## Reading back -/

theorem sequenceAt_of_numberAt {xs : Octets} {i : ℕ} {n : BitVec 16}
    (h : numberAt xs i 2 = n.toNat) : sequenceAt xs i = (n.setWidth 14).setWidth 16 := by
  rw [sequenceAt, h]
  rfl

theorem ite_isSome_getD {α : Type} (o : Option α) (d : α) :
    (if o.isSome = true then some (o.getD d) else none) = o := by
  cases o <;> rfl

/-- A sequence whose flag says that it is present. -/
theorem ite_isSome_masked (o : Option (BitVec 16)) :
    (if o.isSome = true then some (((o.getD 0).setWidth 14).setWidth 16) else none) =
      o.map fun n => (n.setWidth 14).setWidth 16 := by
  cases o <;> rfl

/-- **A record is read back**, its sequences cut to 14 bits. -/
theorem decode_encode_eq : decode r.encode = .ok r.masked := by
  obtain ⟨htag, hflags⟩ := r.head_encode
  obtain ⟨hp, hq⟩ := r.sequences_encode
  obtain ⟨hpn, hrn⟩ := r.nodes_encode
  -- one bit of the flags for each field
  obtain ⟨-, b0, b1, b2, b3, b16, b17, hi⟩ := flags_bits r.timestamp.isSome r.physicalNode.isSome
    r.randomNode.isSome r.physicalSequence.isSome r.randomSequence.isSome
  rw [← flags_eq] at b0 b1 b2 b3 b16 b17 hi
  have hl : r.encode.length = 32 := r.length_encode
  have hd : decode r.encode = .ok (fieldsOf r.encode) := by
    simp only [decode, hl, htag, size]
    rw [if_neg (by decide), if_neg (by decide), if_neg (by decide)]
  have htime : ∀ t : Ticks, Int64.ofBitVec (BitVec.ofNat 64 t.toUInt64.toNat) = t := fun t =>
    Int64.toBitVec_inj.1 (by simp)
  rw [hd, fieldsOf, hflags, r.time_encode, sequenceAt_of_numberAt hp, sequenceAt_of_numberAt hq,
    hpn, hrn]
  simp only [b0, b1, b2, b3, b17, htime, ite_isSome_getD, ite_isSome_masked, Except.ok.injEq,
    masked, StateRecord.mk.injEq, and_true, true_and]
  by_cases hind : r.flags >>> 16 ≠ 0
  · rw [if_pos hind, if_pos hind, b16]
    exact ⟨ite_isSome_masked _, rfl⟩
  · -- without the upper half of the flags there are no sequences
    rw [if_neg hind, if_neg hind, b1]
    rw [hi, not_or, Option.not_isSome_iff_eq_none, Option.not_isSome_iff_eq_none] at hind
    rw [hind.1, hind.2]
    exact ⟨rfl, rfl⟩

/-- **A file is read exactly if it has the tag and the octets of a record**, whatever its flags are
and whatever follows. -/
theorem decode_eq_ok_iff {xs : Octets} {r : StateRecord} :
    decode xs = .ok r ↔ size ≤ xs.length ∧ numberAt xs 0 4 = tag ∧ fieldsOf xs = r := by
  have hsize : size = 32 := rfl
  unfold decode
  split
  · constructor
    · intro h
      cases h
    · rintro ⟨hl, -⟩
      omega
  · split
    · rename_i htag
      constructor
      · intro h
        cases h
      · rintro ⟨-, ht, -⟩
        exact absurd ht htag
    · rename_i htag
      split
      · constructor
        · intro h
          cases h
        · rintro ⟨hl, -⟩
          omega
      · rename_i hl
        rw [Except.ok.injEq]
        have hl : size ≤ xs.length := by omega
        have ht : numberAt xs 0 4 = tag := not_not.1 htag
        exact ⟨fun h => ⟨hl, ht, h⟩, fun h => h.2.2⟩

/-- What is read has no sequence of more than 14 bits. -/
theorem masked_of_decode {xs : Octets} {r : StateRecord} (h : decode xs = .ok r) :
    r.masked = r := by
  obtain ⟨-, -, rfl⟩ := decode_eq_ok_iff.1 h
  have hs : ∀ i, ((sequenceAt xs i).setWidth 14).setWidth 16 = sequenceAt xs i := by
    intro i
    simp [sequenceAt]
  have ho : ∀ (b : Bool) i, ((if b then some (sequenceAt xs i) else none).map fun n =>
      (n.setWidth 14).setWidth 16) = if b then some (sequenceAt xs i) else none := by
    intro b i
    cases b
    · rfl
    · exact congrArg some (hs i)
  simp only [masked, fieldsOf, StateRecord.mk.injEq, and_true, true_and]
  refine ⟨ho _ _, ?_⟩
  split
  · exact ho _ _
  · exact ho _ _

end StateRecord

end UuidForge
