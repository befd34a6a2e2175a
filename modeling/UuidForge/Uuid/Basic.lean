import UuidForge.Octets

/-!
# The identifier

A `Uuid` is a word of 128 bits. Bit 127 is the first bit of octet 0, so the order of the words
is the order of the octet strings and of the canonical texts.

* `Uuid.ofNat_toNat`, `Uuid.toNat_ofNat`: a UUID and its 128-bit number determine each other.
* `Uuid.ofOctets_octets`, `Uuid.octets_ofOctets`: so do a UUID and its 16 octets.
-/

namespace UuidForge

/-- A universally unique identifier. -/
structure Uuid where
  /-- The 128 bits, octet 0 in the most significant place. -/
  bits : BitVec 128
  deriving DecidableEq, Repr

namespace Uuid

/-- The UUID of a 128-bit number. -/
def ofNat (n : Nat) : Uuid := ⟨BitVec.ofNat 128 n⟩

/-- The 128-bit number of a UUID. -/
def toNat (u : Uuid) : Nat := u.bits.toNat

/-- The 16 octets in network order. -/
def octets (u : Uuid) : Octets := Octets.ofNat 16 u.toNat

/-- The UUID of 16 octets in network order. -/
def ofOctets (xs : Octets) : Uuid := ofNat xs.value

/-- The Nil UUID: all bits zero. -/
def nil : Uuid := ⟨0⟩

/-- The Max UUID: all bits one. -/
def max : Uuid := ⟨BitVec.allOnes 128⟩

/-- Name space of fully qualified domain names. -/
def namespaceDns : Uuid := ⟨0x6ba7b8109dad11d180b400c04fd430c8⟩

/-- Name space of URLs. -/
def namespaceUrl : Uuid := ⟨0x6ba7b8119dad11d180b400c04fd430c8⟩

/-- Name space of ISO object identifiers. -/
def namespaceOid : Uuid := ⟨0x6ba7b8129dad11d180b400c04fd430c8⟩

/-- Name space of X.500 distinguished names. -/
def namespaceX500 : Uuid := ⟨0x6ba7b8149dad11d180b400c04fd430c8⟩

/-- The default UUID is the Nil UUID. -/
instance : Inhabited Uuid := ⟨nil⟩

/-- UUIDs are ordered as numbers. -/
instance : LT Uuid := ⟨fun u v => u.bits < v.bits⟩

instance : LE Uuid := ⟨fun u v => u.bits ≤ v.bits⟩

instance (u v : Uuid) : Decidable (u < v) := inferInstanceAs (Decidable (u.bits < v.bits))

instance (u v : Uuid) : Decidable (u ≤ v) := inferInstanceAs (Decidable (u.bits ≤ v.bits))

/-- The bitwise exclusive or of two UUIDs. -/
instance : XorOp Uuid := ⟨fun u v => ⟨u.bits ^^^ v.bits⟩⟩

/-- A list of UUIDs in ascending order. -/
def sort (us : List Uuid) : List Uuid := us.mergeSort fun u v => decide (u ≤ v)

theorem toNat_lt (u : Uuid) : u.toNat < 0x100000000000000000000000000000000 := u.bits.isLt

@[simp] theorem ofNat_toNat (u : Uuid) : ofNat u.toNat = u := by
  simp [ofNat, toNat]

@[simp] theorem toNat_ofNat (n : Nat) :
    (ofNat n).toNat = n % 0x100000000000000000000000000000000 := by
  simp [ofNat, toNat]

theorem lt_iff_toNat {u v : Uuid} : u < v ↔ u.toNat < v.toNat := Iff.rfl

theorem le_iff_toNat {u v : Uuid} : u ≤ v ↔ u.toNat ≤ v.toNat := Iff.rfl

@[simp] theorem length_octets (u : Uuid) : u.octets.length = 16 := by simp [octets]

@[simp] theorem ofOctets_octets (u : Uuid) : ofOctets u.octets = u := by
  rw [ofOctets, octets, Octets.value_ofNat, Nat.mod_eq_of_lt, ofNat_toNat]
  exact u.toNat_lt

theorem octets_ofOctets {xs : Octets} (h : xs.length = 16) : (ofOctets xs).octets = xs := by
  have hv := Octets.value_ofNat 16 xs.value
  rw [← h, Octets.ofNat_value] at hv
  rw [h] at hv
  rw [ofOctets, octets, toNat_ofNat, ← hv, ← h,
    Octets.ofNat_value]

end Uuid

end UuidForge
