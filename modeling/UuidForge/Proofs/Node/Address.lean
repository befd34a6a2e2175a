import UuidForge.Node.Listing
import UuidForge.Proofs.Text.ByteOrder
import UuidForge.Proofs.Text.Spelling

/-!
# Hardware addresses as text

* `NodeId.IsSpelledBy`: what spells a hardware address.
* `Interface.address?_eq_some_iff`: **an address is read from the texts that spell it**, and from no
  others.
-/

namespace UuidForge

/-- **A text spells a hardware address**: with a hexadecimal number for each octet and a colon
between two of them. -/
def NodeId.IsSpelledBy (n : NodeId) (cs : List Char) : Prop :=
  ∃ parts, cs = [':'].intercalate parts ∧
    List.Forall₂ (fun part (o : UInt8) => Text.Spells 16 part o.toNat) parts n.octets

variable {n : NodeId} {cs : List Char}

@[simp] theorem NodeId.length_octets (n : NodeId) : n.octets.length = 6 := Octets.length_ofNat 6 _

theorem NodeId.value_octets (n : NodeId) : Octets.value n.octets = n.toNat := by
  rw [octets, Octets.value_ofNat]
  exact Nat.mod_eq_of_lt n.isLt

/-- The octets of the number that six octets denote. -/
theorem NodeId.octets_of_value {xs : Octets} (h : xs.length = 6) :
    NodeId.octets (BitVec.ofNat 48 (Octets.value xs)) = xs := by
  have hlt := Octets.value_lt xs
  rw [h] at hlt
  have hmod : Octets.value xs % 2 ^ 48 = Octets.value xs := Nat.mod_eq_of_lt hlt
  rw [octets, BitVec.toNat_ofNat, hmod, ← h, Octets.ofNat_value]

/-- Numbers below 256 are octets. -/
theorem forall₂_lt_iff {R : List Char → ℕ → Prop} {parts : List (List Char)} {vs : List ℕ} :
    List.Forall₂ (fun part v => R part v ∧ v < 256) parts vs ↔
      ∃ xs : Octets, vs = xs.map UInt8.toNat ∧
        List.Forall₂ (fun part o => R part o.toNat) parts xs := by
  constructor
  · intro h
    induction h with
    | nil => exact ⟨[], rfl, .nil⟩
    | @cons part v _ _ hv _ ih =>
      obtain ⟨xs, hxs, hrest⟩ := ih
      have hback : (UInt8.ofNat v).toNat = v := UInt8.toNat_ofNat_of_lt' hv.2
      refine ⟨UInt8.ofNat v :: xs, ?_, .cons ?_ hrest⟩
      · rw [List.map_cons, hback, hxs]
      · rw [hback]
        exact hv.1
  · rintro ⟨xs, hxs, h⟩
    rw [hxs, List.forall₂_map_right_iff]
    exact h.imp fun _ o hr => ⟨hr, o.toNat_lt⟩

namespace Interface

/-- **An address is read from the texts that spell it**, and from no others. -/
theorem address?_eq_some_iff : address? cs = some n ↔ n.IsSpelledBy cs := by
  unfold address?
  rw [Text.splitAt_eq_splitOn]
  simp only [Option.bind_eq_bind, Option.bind_eq_some_iff, Text.mapM_eq_some_iff,
    Text.number?_eq_some_iff, forall₂_lt_iff]
  constructor
  · rintro ⟨_, ⟨xs, rfl, hparts⟩, hn⟩
    split at hn
    · rename_i hlen
      rw [List.length_map] at hlen
      have hoctets : n.octets = xs := by
        rw [← Option.some.inj hn]
        exact NodeId.octets_of_value hlen
      refine ⟨cs.splitOn ':', (List.intercalate_splitOn ':').symm, ?_⟩
      rwa [hoctets]
    · cases hn
  · rintro ⟨parts, hcs, hparts⟩
    have hplain : ∀ part ∈ parts, ':' ∉ part :=
      ((List.forall₂_and_left _ _).1 (hparts.imp fun _ _ h => ⟨h.not_mem rfl (by decide), h⟩)).1
    have hne : parts ≠ [] := by
      intro hnil
      have hlen := hparts.length_eq
      rw [hnil, n.length_octets] at hlen
      cases hlen
    have hsplit : cs.splitOn ':' = parts := by
      rw [hcs]
      exact List.splitOn_intercalate ':' hplain hne
    have hlen : (n.octets.map UInt8.toNat).length = 6 := by rw [List.length_map, n.length_octets]
    have hvalue : Radix.value 256 (n.octets.map UInt8.toNat) = n.toNat := n.value_octets
    rw [hsplit]
    refine ⟨_, ⟨n.octets, rfl, hparts⟩, ?_⟩
    rw [if_pos hlen, hvalue, BitVec.ofNat_toNat, BitVec.setWidth_eq]

example : address? "00:1a:+2b:3C:004d:5e".toList = some 0x001a2b3c4d5e := by decide

end Interface

end UuidForge
