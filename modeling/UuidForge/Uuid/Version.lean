import UuidForge.Uuid.Slice

/-!
# Version, variant and local domain

The version is the high nibble of octet 6. The variant is a code of one to three bits at the top
of octet 8: writing a variant changes only the bits of its own code.

* `Variant.decode_encode`: an octet decodes to the variant that was written into it.
* `Uuid.version_stamp`, `Uuid.variant_stamp`: a stamped UUID carries its stamp.
-/

namespace UuidForge

/-- The version number of a UUID. -/
structure Version where
  number : BitVec 4
  deriving DecidableEq, Repr

namespace Version

/-- The version of the low four bits of a number. -/
def ofNat (n : Nat) : Version := ⟨BitVec.ofNat 4 n⟩

/-- The version number as a natural number. -/
def toNat (v : Version) : Nat := v.number.toNat

/-- Version of the Nil UUID. -/
def empty : Version := ⟨0⟩
/-- Gregorian time. -/
def v1 : Version := ⟨1⟩
/-- DCE Security. -/
def v2 : Version := ⟨2⟩
/-- MD5 of a name. -/
def v3 : Version := ⟨3⟩
/-- Random bits. -/
def v4 : Version := ⟨4⟩
/-- SHA-1 of a name. -/
def v5 : Version := ⟨5⟩
/-- Gregorian time in sortable order. -/
def v6 : Version := ⟨6⟩
/-- Unix time. -/
def v7 : Version := ⟨7⟩
/-- A layout of one's own. -/
def v8 : Version := ⟨8⟩
/-- Version of the Max UUID. -/
def max : Version := ⟨15⟩

/-- The default version is that of the Nil UUID. -/
instance : Inhabited Version := ⟨empty⟩

/-- The payload of the version holds a timestamp. -/
def isTimeBased (v : Version) : Bool := [v1, v2, v6, v7].contains v

/-- UUIDs of the version can come from a namespace and a name. -/
def isNameBased (v : Version) : Bool := [v3, v5, v8].contains v

end Version

/-- Who laid down the format of a UUID. -/
inductive Variant
  /-- Code `0`: Apollo NCS. -/
  | ncs
  /-- Code `10`: the standard layout. -/
  | rfc4122
  /-- Code `110`: Microsoft. -/
  | microsoft
  /-- Code `111`: kept for later. -/
  | reserved
  deriving DecidableEq, Repr, Inhabited

namespace Variant

/-- All variants, by number. -/
def all : List Variant := [ncs, rfc4122, microsoft, reserved]

/-- The variant of the low two bits of a number. -/
def ofCode (n : Nat) : Variant :=
  match n % 4 with
  | 0 => ncs
  | 1 => rfc4122
  | 2 => microsoft
  | _ => reserved

/-- The bits of octet 8 that the code of a variant takes. -/
def mask : Variant → BitVec 8
  | ncs => 0x80
  | rfc4122 => 0xc0
  | microsoft => 0xe0
  | reserved => 0xe0

/-- The code of a variant in its place in octet 8. -/
def code : Variant → BitVec 8
  | ncs => 0x00
  | rfc4122 => 0x80
  | microsoft => 0xc0
  | reserved => 0xe0

/-- Writes the code of a variant into an octet and leaves the other bits as they are. -/
def encode (v : Variant) (octet : BitVec 8) : BitVec 8 := blend octet v.code v.mask

/-- The variant whose code an octet starts with. -/
def decode (octet : BitVec 8) : Variant :=
  match octet.getLsbD 7, octet.getLsbD 6, octet.getLsbD 5 with
  | false, _, _ => ncs
  | true, false, _ => rfc4122
  | true, true, false => microsoft
  | true, true, true => reserved

/-- **An octet decodes to the variant that was written into it.** -/
theorem decode_encode (v : Variant) (octet : BitVec 8) : decode (v.encode octet) = v := by
  simp only [decode, encode, blend_bit]
  cases v <;> simp [mask, code]

end Variant

/-- The domain that the local id of a version 2 UUID belongs to. -/
structure LocalDomain where
  number : BitVec 8
  deriving DecidableEq, Repr

namespace LocalDomain

/-- POSIX user ids. -/
def person : LocalDomain := ⟨0⟩
/-- POSIX group ids. -/
def group : LocalDomain := ⟨1⟩
/-- Organisations. -/
def org : LocalDomain := ⟨2⟩

end LocalDomain

namespace Slice

/-- The version nibble. -/
abbrev version : Slice := ⟨76, 4⟩

/-- Octet 8, which starts with the variant. -/
abbrev variantOctet : Slice := ⟨56, 8⟩

end Slice

namespace Uuid

/-- The version that a UUID carries. -/
def version (u : Uuid) : Version := ⟨Slice.version.read u⟩

/-- Writes the version nibble. -/
def withVersion (u : Uuid) (v : Version) : Uuid := Slice.version.write u v.number

/-- The variant that a UUID carries. -/
def variant (u : Uuid) : Variant := Variant.decode (Slice.variantOctet.read u)

/-- Writes the variant code and nothing else of octet 8. -/
def withVariant (u : Uuid) (v : Variant) : Uuid :=
  Slice.variantOctet.write u (v.encode (Slice.variantOctet.read u))

/-- Writes version and variant over whatever bits stand there. -/
def stamp (u : Uuid) (v : Version) (w : Variant) : Uuid := (u.withVersion v).withVariant w

/-- The variant is the standard one. -/
def isStandard (u : Uuid) : Bool := u.variant == .rfc4122

@[simp] theorem version_withVersion (u : Uuid) (v : Version) : (u.withVersion v).version = v := by
  rw [version, withVersion, Slice.read_write (by decide)]

@[simp] theorem variant_withVariant (u : Uuid) (v : Variant) : (u.withVariant v).variant = v := by
  rw [variant, withVariant, Slice.read_write (by decide), Variant.decode_encode]

@[simp] theorem version_withVariant (u : Uuid) (v : Variant) :
    (u.withVariant v).version = u.version := by
  rw [version, version, withVariant, Slice.read_write_of_apart (by decide)]

/-- A stamped UUID carries the version of the stamp. -/
theorem version_stamp (u : Uuid) (v : Version) (w : Variant) : (u.stamp v w).version = v := by
  simp [stamp]

/-- A stamped UUID carries the variant of the stamp. -/
theorem variant_stamp (u : Uuid) (v : Version) (w : Variant) : (u.stamp v w).variant = w := by
  simp [stamp]

end Uuid

end UuidForge
