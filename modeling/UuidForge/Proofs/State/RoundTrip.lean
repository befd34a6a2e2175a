import UuidForge.Proofs.Masks
import UuidForge.Proofs.State.Codec

/-!
# Records and files

A record comes back from its 32 octets as it was, if its sequences fit into 14 bits, and with its
sequences cut to 14 bits otherwise. A file of another writer may have a joint sequence, flags of its
own and octets after the record; what is read from it is kept from then on.

* `StateRecord.masked_eq_self_iff`: which records have nothing to cut.
* `StateRecord.round_trip`: **both directions between records and files.**
-/

namespace UuidForge

/-- A sequence of a record is a word that is cut to 14 bits. -/
theorem setWidth_fourteen_eq_and (n : BitVec 16) : (n.setWidth 14).setWidth 16 = n &&& 0x3fff :=
  setWidth_setWidth_eq_and (by decide) n

namespace StateRecord

variable {r : StateRecord}

/-- The sequences of a record have no more than 14 bits. -/
def Fits (r : StateRecord) : Prop :=
  (∀ n ∈ r.physicalSequence, n.toNat < 2 ^ 14) ∧ ∀ n ∈ r.randomSequence, n.toNat < 2 ^ 14

theorem masked_eq (r : StateRecord) : r.masked =
    { r with
      physicalSequence := r.physicalSequence.map (· &&& 0x3fff)
      randomSequence := r.randomSequence.map (· &&& 0x3fff) } := by
  simp only [masked, setWidth_fourteen_eq_and]

/-- **A record has nothing to cut exactly if its sequences fit.** -/
theorem masked_eq_self_iff : r.masked = r ↔ r.Fits := by
  have hmap : ∀ o : Option (BitVec 16),
      o.map (· &&& 0x3fff) = o ↔ ∀ n ∈ o, n.toNat < 2 ^ 14 := by
    intro o
    cases o with
    | none => simp
    | some n => simpa using and_ones_eq_self_iff (m := 14) (by decide) n
  rw [masked_eq, Fits, ← hmap, ← hmap]
  cases r
  simp

theorem decode_encode_iff : decode r.encode = .ok r ↔ r.Fits := by
  rw [decode_encode_eq, Except.ok.injEq, masked_eq_self_iff]

/-- **Both directions between records and files.** Every record comes back from its octets with its
present sequences masked to 14 bits, and unchanged exactly if they fit. What was read from any file,
with a joint sequence or one for each domain, unknown flags or octets after the record, comes back
from the octets that are written for it. These are always 32 octets with the tag in front. -/
theorem round_trip :
    (∀ r : StateRecord, decode r.encode = .ok
      { r with
        physicalSequence := r.physicalSequence.map (· &&& 0x3fff)
        randomSequence := r.randomSequence.map (· &&& 0x3fff) }) ∧
    (∀ r : StateRecord, decode r.encode = .ok r ↔
      (∀ n ∈ r.physicalSequence, n.toNat < 2 ^ 14) ∧ ∀ n ∈ r.randomSequence, n.toNat < 2 ^ 14) ∧
    (∀ (xs : Octets) (r : StateRecord), decode xs = .ok r → decode r.encode = .ok r) ∧
    ∀ r : StateRecord, r.encode.length = 32 ∧ numberAt r.encode 0 4 = 4122 := by
  refine ⟨fun r => ?_, fun r => decode_encode_iff, fun xs r h => ?_, fun r => ?_⟩
  · rw [← masked_eq]
    exact r.decode_encode_eq
  · rw [decode_encode_eq, masked_of_decode h]
  · exact ⟨r.length_encode, r.head_encode.1⟩

/-- A record of another writer: a joint sequence with a bit too many, a flag that nobody knows, and
an octet after the record. -/
def foreign : Octets :=
  Octets.ofNatLittle 4 tag ++ Octets.ofNatLittle 4 0x83 ++ Octets.ofNatLittle 8 7 ++
    Octets.ofNatLittle 4 0xc02a ++ List.replicate 12 1 ++ [0xff]

theorem round_trip_foreign :
    decode foreign =
        .ok { timestamp := some 7, physicalSequence := some 42, randomSequence := some 42 } ∧
      decode (encode
          { timestamp := some 7, physicalSequence := some 42, randomSequence := some 42 }) =
        .ok { timestamp := some 7, physicalSequence := some 42, randomSequence := some 42 } := by
  have hread : decode foreign =
      .ok { timestamp := some 7, physicalSequence := some 42, randomSequence := some 42 } := by
    decide
  exact ⟨hread, round_trip.2.2.1 foreign _ hread⟩

end StateRecord

end UuidForge
