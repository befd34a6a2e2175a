import UuidForge.Radix

/-!
# Octet strings

An octet string denotes a number in base 256, most significant octet first.

* `Octets.value_ofNat`: `n` octets hold a number modulo `256 ^ n`.
* `Octets.ofNat_value`: an octet string is the writing of the number that it denotes.
-/

namespace UuidForge

/-- A string of octets. -/
abbrev Octets := List UInt8

namespace Octets

/-- The number denoted in big-endian order. -/
def value (xs : Octets) : Nat := Radix.value 256 (xs.map UInt8.toNat)

/-- The last `n` octets of `v` in big-endian order. -/
def ofNat (n v : Nat) : Octets := (Radix.digits 256 n v).map UInt8.ofNat

/-- The number denoted in little-endian order. -/
def valueLittle (xs : Octets) : Nat := value xs.reverse

/-- The last `n` octets of `v` in little-endian order. -/
def ofNatLittle (n v : Nat) : Octets := (ofNat n v).reverse

/-- The text encoded in UTF-8, if there is one. -/
def text? (xs : Octets) : Option String := String.fromUTF8? ⟨xs.toArray⟩

@[simp] theorem length_ofNat (n v : Nat) : (ofNat n v).length = n := by simp [ofNat]

@[simp] theorem length_ofNatLittle (n v : Nat) : (ofNatLittle n v).length = n := by
  simp [ofNatLittle]

/-- **`n` octets hold a number modulo `256 ^ n`.** -/
theorem value_ofNat (n v : Nat) : value (ofNat n v) = v % Nat.pow 256 n := by
  rw [value, ofNat, List.map_map, ← Radix.value_digits]
  congr 1
  refine (List.map_congr_left fun d hd => ?_).trans (List.map_id _)
  have : d < 256 := Radix.lt_of_mem_digits (by omega) hd
  simp [Nat.mod_eq_of_lt this]

/-- **An octet string is the writing of the number that it denotes.** -/
theorem ofNat_value (xs : Octets) : ofNat xs.length (value xs) = xs := by
  have h : ∀ d ∈ xs.map UInt8.toNat, d < 256 := by
    intro d hd
    obtain ⟨x, -, rfl⟩ := List.mem_map.1 hd
    exact x.toNat_lt
  have := Radix.digits_value h
  rw [List.length_map] at this
  rw [ofNat, value, this, List.map_map]
  exact (List.map_congr_left fun x _ => by simp).trans (List.map_id _)

end Octets

end UuidForge
