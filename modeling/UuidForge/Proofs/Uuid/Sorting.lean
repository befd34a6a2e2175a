import Mathlib.Data.List.Sort
import Mathlib.Data.Nat.Bitwise
import UuidForge.Proofs.Uuid.TextOrder

/-!
# One order for words, octets and texts

A UUID is a number, a string of 16 octets and a text, and each of them has an order of its own. The
three orders are one: the first octet that differs decides about the number, and the first digit
that differs about the text.

* `Octets.lt_iff_value_lt`: octet strings of one length are in the order of the numbers that they
  denote.
* `Uuid.eq_sort_iff`: whatever arranges UUIDs by a key in their order gives the sorted list.
* `Uuid.orders_agree`: **UUIDs are in the order of their octets, of their numbers and of their
  texts**, and sorting by any of these gives the same list.
-/

namespace UuidForge

namespace Octets

variable {xs ys : Octets}

/-- Octets compare as their numbers do, place by place. -/
theorem map_toNat_lt_iff : xs.map UInt8.toNat < ys.map UInt8.toNat ↔ xs < ys := by
  induction xs generalizing ys with
  | nil =>
    cases ys with
    | nil => simp
    | cons y ys => simp
  | cons x xs ih =>
    cases ys with
    | nil => simp
    | cons y ys =>
      have hlt : x.toNat < y.toNat ↔ x < y := UInt8.lt_iff_toNat_lt.symm
      rw [List.map_cons, List.map_cons, List.cons_lt_cons_iff, List.cons_lt_cons_iff, ih, hlt,
        UInt8.toNat_inj]

/-- The digits of the number that octets denote are the octets. -/
theorem digits_value (xs : Octets) : Radix.digits 256 xs.length xs.value = xs.map UInt8.toNat := by
  have hbound : ∀ d ∈ xs.map UInt8.toNat, d < 256 := by
    intro d hd
    obtain ⟨x, -, rfl⟩ := List.mem_map.1 hd
    exact x.toNat_lt
  have hdigits := Radix.digits_value hbound
  rwa [List.length_map] at hdigits

theorem value_lt (xs : Octets) : xs.value < Nat.pow 256 xs.length := by
  have hmod := Radix.value_digits 256 xs.length xs.value
  rw [digits_value] at hmod
  have hpos : 0 < Nat.pow 256 xs.length := Nat.pow_pos (by decide)
  have hlt := Nat.mod_lt xs.value hpos
  rwa [← hmod] at hlt

/-- **Octet strings of one length are in the order of the numbers that they denote.** -/
theorem lt_iff_value_lt (h : xs.length = ys.length) : xs < ys ↔ xs.value < ys.value := by
  have hx := value_lt xs
  have hy := value_lt ys
  rw [← h] at hy
  rw [← Radix.digits_lt_digits_iff (by decide) hx hy, digits_value, h, digits_value,
    map_toNat_lt_iff]

end Octets

namespace Uuid

variable {u v : Uuid} {us vs : List Uuid}

/-- **UUIDs are in the order of their octets.** -/
theorem octets_lt_octets_iff : u.octets < v.octets ↔ u < v := by
  have hlen : u.octets.length = v.octets.length := by rw [length_octets, length_octets]
  have hvalue : ∀ x : Uuid, x.octets.value = x.toNat := by
    intro x
    rw [octets, Octets.value_ofNat, Nat.mod_eq_of_lt]
    exact x.toNat_lt
  rw [Octets.lt_iff_value_lt hlen, hvalue, hvalue, lt_iff_toNat]

theorem octets_le_octets_iff : u.octets ≤ v.octets ↔ u ≤ v := by
  have hle : u ≤ v ↔ ¬ v < u := by rw [le_iff_toNat, lt_iff_toNat, Nat.not_lt]
  rw [hle, ← octets_lt_octets_iff, List.not_lt]

theorem text_le_text_iff : u.text ≤ v.text ↔ u ≤ v := by
  have hle : u ≤ v ↔ ¬ v < u := by rw [le_iff_toNat, lt_iff_toNat, Nat.not_lt]
  rw [hle, ← text_lt_text_iff, String.not_lt]

/-- A sorted list has the elements of the list, in ascending order. -/
theorem sort_spec (us : List Uuid) : (sort us).Perm us ∧ (sort us).Pairwise (· ≤ ·) := by
  refine ⟨List.mergeSort_perm us _, ?_⟩
  have htrans : ∀ a b c : Uuid, decide (a ≤ b) = true → decide (b ≤ c) = true →
      decide (a ≤ c) = true := by
    intro a b c hab hbc
    rw [decide_eq_true_iff, le_iff_toNat] at hab hbc ⊢
    omega
  have htotal : ∀ a b : Uuid, (decide (a ≤ b) || decide (b ≤ a)) = true := by
    intro a b
    rw [Bool.or_eq_true, decide_eq_true_iff, decide_eq_true_iff, le_iff_toNat, le_iff_toNat]
    omega
  have hsorted := List.pairwise_mergeSort htrans htotal us
  exact hsorted.imp fun h => of_decide_eq_true h

/-- **Whatever arranges UUIDs by a key in their order gives the sorted list.** -/
theorem eq_sort_iff {α : Type} [LE α] {key : Uuid → α} (hkey : ∀ u v, key u ≤ key v ↔ u ≤ v) :
    vs = sort us ↔ vs.Perm us ∧ vs.Pairwise fun u v => key u ≤ key v := by
  obtain ⟨hperm, hsorted⟩ := sort_spec us
  have hkeys : (vs.Pairwise fun u v => key u ≤ key v) ↔ vs.Pairwise (· ≤ ·) := by
    simp only [hkey]
  rw [hkeys]
  constructor
  · intro h
    rw [h]
    exact ⟨hperm, hsorted⟩
  · rintro ⟨hvs, hle⟩
    -- equal UUIDs cannot be told apart, so the order leaves no choice
    have hanti : ∀ a b, a ∈ vs → b ∈ sort us → a ≤ b → b ≤ a → a = b := by
      intro a b _ _ hab hba
      have heq : a.toNat = b.toNat := Nat.le_antisymm hab hba
      rw [← ofNat_toNat a, heq, ofNat_toNat]
    exact (hvs.trans hperm.symm).eq_of_pairwise hanti hle hsorted

/-- **One order.** UUIDs are in the order of their octets, of their numbers and of their texts. A
UUID and its number determine each other, and so do a UUID and its octets. So a list that is
arranged by octets, by numbers or by texts is the sorted list, whichever way it was arranged. -/
theorem orders_agree :
    (∀ u v : Uuid, (u < v ↔ u.octets < v.octets) ∧ (u < v ↔ u.toNat < v.toNat) ∧
      (u < v ↔ u.text < v.text)) ∧
    (∀ u : Uuid, u.toNat < 2 ^ 128 ∧ ofNat u.toNat = u ∧ u.octets.length = 16 ∧
      ofOctets u.octets = u) ∧
    (∀ n, n < 2 ^ 128 → (ofNat n).toNat = n) ∧
    (∀ xs : Octets, xs.length = 16 → (ofOctets xs).octets = xs) ∧
    ∀ us vs : List Uuid,
      (vs = sort us ↔ vs.Perm us ∧ vs.Pairwise fun u v => u.octets ≤ v.octets) ∧
      (vs = sort us ↔ vs.Perm us ∧ vs.Pairwise fun u v => u.toNat ≤ v.toNat) ∧
      (vs = sort us ↔ vs.Perm us ∧ vs.Pairwise fun u v => u.text ≤ v.text) := by
  refine ⟨fun u v => ?_, fun u => ?_, fun n hn => ?_, fun xs => octets_ofOctets, fun us vs => ?_⟩
  · exact ⟨octets_lt_octets_iff.symm, lt_iff_toNat, text_lt_text_iff.symm⟩
  · exact ⟨u.bits.isLt, ofNat_toNat u, length_octets u, ofOctets_octets u⟩
  · rw [toNat_ofNat]
    exact Nat.mod_eq_of_lt hn
  · exact ⟨eq_sort_iff fun _ _ => octets_le_octets_iff, eq_sort_iff fun _ _ => le_iff_toNat.symm,
      eq_sort_iff fun _ _ => text_le_text_iff⟩

/-- The largest number and its octets, and name spaces arranged by their texts. -/
theorem orders_agree_spaces :
    (ofNat (2 ^ 128 - 1)).toNat = 2 ^ 128 - 1 ∧
      (ofOctets (List.replicate 16 0xff)).octets = List.replicate 16 0xff ∧
      [namespaceDns, namespaceUrl, max] = sort [max, namespaceUrl, namespaceDns] := by
  obtain ⟨-, -, hnat, hoctets, hsort⟩ := orders_agree
  refine ⟨hnat _ (by decide), hoctets _ (by decide), (hsort _ _).2.2.2 ⟨?_, ?_⟩⟩
  · decide
  · have hle : ∀ u v : Uuid, u ≤ v → u.text ≤ v.text := fun u v => text_le_text_iff.2
    simp only [List.pairwise_cons, List.mem_cons, List.not_mem_nil, or_false, forall_eq_or_imp,
      forall_eq, List.Pairwise.nil, and_true, false_implies, implies_true]
    exact ⟨⟨hle _ _ (by decide), hle _ _ (by decide)⟩, hle _ _ (by decide)⟩

end Uuid

end UuidForge
