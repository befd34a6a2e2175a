import UuidForge.Proofs.Uuid.Octets
import UuidForge.Uuid.Fields

/-!
# Reading and writing the six fields

The six classic fields tile the 128 bits in whole octets, and a write replaces those bits of one
field that its mask selects. So after any number of writes, every bit is the last one written to it.

* `Uuid.fields_ofFields`, `Uuid.ofFields_fields`: a UUID and its fields determine each other.
* `Uuid.octets_fields`: the octets of a UUID are those of its fields.
* `FieldWrite.apply_eq`: every setter writes to the slice of its field, under a mask.
* `FieldWrite.bit_apply`, `FieldWrite.bit_applyAll`: **one write and a row of writes, bit by bit.**
* `Uuid.fields_exact`: **fields are independent**, and each holds what was last written to it.
-/

namespace UuidForge

theorem blend_allOnes {n : ℕ} (old new : BitVec n) : blend old new (BitVec.allOnes n) = new := by
  unfold blend
  rw [BitVec.not_allOnes, BitVec.and_zero, BitVec.zero_or, BitVec.and_allOnes]

/-- One of the six fields. -/
inductive Field
  | timeLow
  | timeMid
  | timeHiAndVersion
  | clockHiAndVariant
  | clockLow
  | node
  deriving DecidableEq, Repr

namespace Field

/-- The bits of a field. -/
def slice : Field → Slice
  | timeLow => Slice.timeLow
  | timeMid => Slice.timeMid
  | timeHiAndVersion => Slice.timeHiAndVersion
  | clockHiAndVariant => Slice.clockHiAndVariant
  | clockLow => Slice.clockLow
  | node => Slice.node

/-- The first octet of a field. -/
def first : Field → ℕ
  | timeLow => 0
  | timeMid => 4
  | timeHiAndVersion => 6
  | clockHiAndVariant => 8
  | clockLow => 9
  | node => 10

/-- The number of octets of a field. -/
def size : Field → ℕ
  | timeLow => 4
  | timeMid => 2
  | timeHiAndVersion => 2
  | clockHiAndVariant => 1
  | clockLow => 1
  | node => 6

/-- The fields from the first octet to the last. -/
def all : List Field := [timeLow, timeMid, timeHiAndVersion, clockHiAndVariant, clockLow, node]

variable {k l : Field}

theorem map_slice_all : all.map slice = Slice.fields := rfl

theorem wholeOctets (k : Field) : k.slice.WholeOctets := by
  cases k <;> exact ⟨by decide, by decide, by decide⟩

theorem first_eq (k : Field) : k.slice.firstOctet = k.first := by
  cases k <;> rfl

theorem size_eq (k : Field) : k.slice.width / 8 = k.size := by
  cases k <;> rfl

/-- **No two fields share a bit.** -/
theorem apart_of_ne (h : k ≠ l) : k.slice.Apart l.slice := by
  revert h
  cases k <;> cases l <;> decide

end Field

/-- The value of a field. -/
def Fields.get (f : Fields) : (k : Field) → BitVec k.slice.width
  | .timeLow => f.timeLow
  | .timeMid => f.timeMid
  | .timeHiAndVersion => f.timeHiAndVersion
  | .clockHiAndVariant => f.clockHiAndVariant
  | .clockLow => f.clockLow
  | .node => f.node

theorem Fields.ext_get {f g : Fields} (h : ∀ k, f.get k = g.get k) : f = g := by
  cases f
  cases g
  rw [Fields.mk.injEq]
  exact ⟨h .timeLow, h .timeMid, h .timeHiAndVersion, h .clockHiAndVariant, h .clockLow, h .node⟩

/-- The octets of all fields, each with its most significant octet first. -/
def Fields.octets (f : Fields) : Octets :=
  Field.all.flatMap fun k => Octets.ofNat k.size (f.get k).toNat

namespace Uuid

variable {u v : Uuid}

/-! ## Six fields at once -/

theorem get_fields (u : Uuid) (k : Field) : u.fields.get k = k.slice.read u := by
  cases k <;> rfl

/-- **UUIDs with the same fields are the same.** -/
theorem ext_fields (h : ∀ k, u.fields.get k = v.fields.get k) : u = v := by
  have htile : Tile 128 Slice.fields 0 := by decide
  apply eq_of_tile htile
  intro s hs
  rw [← Field.map_slice_all] at hs
  obtain ⟨k, -, rfl⟩ := List.mem_map.1 hs
  rw [← get_fields, ← get_fields, h]

/-- **What the fields of an assembled UUID hold.** -/
theorem read_ofFields (f : Fields) (k : Field) : k.slice.read (ofFields f) = f.get k := by
  unfold Slice.read ofFields
  -- the fields below are cut off one by one
  cases k with
  | node => exact BitVec.extractLsb'_append_eq_right
  | clockLow =>
    iterate 1 rw [BitVec.extractLsb'_append_eq_of_le (by decide)]
    exact BitVec.extractLsb'_append_eq_right
  | clockHiAndVariant =>
    iterate 2 rw [BitVec.extractLsb'_append_eq_of_le (by decide)]
    exact BitVec.extractLsb'_append_eq_right
  | timeHiAndVersion =>
    iterate 3 rw [BitVec.extractLsb'_append_eq_of_le (by decide)]
    exact BitVec.extractLsb'_append_eq_right
  | timeMid =>
    iterate 4 rw [BitVec.extractLsb'_append_eq_of_le (by decide)]
    exact BitVec.extractLsb'_append_eq_right
  | timeLow =>
    iterate 4 rw [BitVec.extractLsb'_append_eq_of_le (by decide)]
    exact BitVec.extractLsb'_append_eq_left

theorem fields_ofFields (f : Fields) : (ofFields f).fields = f := by
  apply Fields.ext_get
  intro k
  rw [get_fields, read_ofFields]

theorem ofFields_fields (u : Uuid) : ofFields u.fields = u := by
  apply ext_fields
  intro k
  rw [fields_ofFields]

/-- **The octets of a UUID are those of its fields.** -/
theorem octets_fields (u : Uuid) : u.fields.octets = u.octets := by
  have htile : Tile 128 Slice.fields 0 := by decide
  rw [octets_of_tile htile (by decide), ← Field.map_slice_all, List.flatMap_map, Fields.octets]
  congr
  funext k
  rw [get_fields, Field.size_eq]

/-- **A field is the number that its octets denote.** -/
theorem value_octets_field (u : Uuid) (k : Field) :
    Octets.value ((u.octets.drop k.first).take k.size) = (u.fields.get k).toNat := by
  rw [get_fields, ← Field.first_eq, ← Field.size_eq]
  exact Slice.value_octets k.wholeOctets u

end Uuid

/-! ## One write -/

/-- A write to one of the six fields. The two that hold version and variant are written under a
mask. -/
inductive FieldWrite
  | timeLow (v : BitVec 32)
  | timeMid (v : BitVec 16)
  | timeHiAndVersion (v mask : BitVec 16)
  | clockHiAndVariant (v mask : BitVec 8)
  | clockLow (v : BitVec 8)
  | node (v : BitVec 48)
  deriving DecidableEq, Repr

namespace FieldWrite

/-- The UUID after a write. -/
def apply (u : Uuid) : FieldWrite → Uuid
  | timeLow v => u.setTimeLow v
  | timeMid v => u.setTimeMid v
  | timeHiAndVersion v mask => u.setTimeHiAndVersion v mask
  | clockHiAndVariant v mask => u.setClockHiAndVariant v mask
  | clockLow v => u.setClockLow v
  | node v => u.setNode v

/-- The field that is written. -/
def field : FieldWrite → Field
  | timeLow _ => .timeLow
  | timeMid _ => .timeMid
  | timeHiAndVersion _ _ => .timeHiAndVersion
  | clockHiAndVariant _ _ => .clockHiAndVariant
  | clockLow _ => .clockLow
  | node _ => .node

/-- The value that is written. -/
def value : (w : FieldWrite) → BitVec w.field.slice.width
  | timeLow v => v
  | timeMid v => v
  | timeHiAndVersion v _ => v
  | clockHiAndVariant v _ => v
  | clockLow v => v
  | node v => v

/-- The bits that are written: all of them, where no mask is given. -/
def mask : (w : FieldWrite) → BitVec w.field.slice.width
  | timeLow _ => BitVec.allOnes 32
  | timeMid _ => BitVec.allOnes 16
  | timeHiAndVersion _ mask => mask
  | clockHiAndVariant _ mask => mask
  | clockLow _ => BitVec.allOnes 8
  | node _ => BitVec.allOnes 48

/-- The write selects bit `i` of a field. -/
def Selects (w : FieldWrite) (k : Field) (i : ℕ) : Prop := w.field = k ∧ w.mask.getLsbD i = true

instance (w : FieldWrite) (k : Field) (i : ℕ) : Decidable (w.Selects k i) :=
  inferInstanceAs (Decidable (_ ∧ _))

variable {w w' : FieldWrite} {k : Field}

/-- **Every setter is a write under a mask** to the slice of its field. -/
theorem apply_eq (w : FieldWrite) (u : Uuid) :
    w.apply u = w.field.slice.writeMasked u w.value w.mask := by
  cases w with
  | timeHiAndVersion v mask => rfl
  | clockHiAndVariant v mask => rfl
  | _ => exact congrArg (Slice.write _ u) (blend_allOnes _ _).symm

/-- **The field that is written** keeps the bits that the mask leaves out. -/
theorem get_apply (u : Uuid) (w : FieldWrite) :
    (w.apply u).fields.get w.field = blend (u.fields.get w.field) w.value w.mask := by
  rw [Uuid.get_fields, Uuid.get_fields, apply_eq]
  exact Slice.read_write w.field.wholeOctets.fits u _

/-- **Every other field is kept.** -/
theorem get_apply_of_ne (u : Uuid) (h : k ≠ w.field) :
    (w.apply u).fields.get k = u.fields.get k := by
  rw [Uuid.get_fields, Uuid.get_fields, apply_eq]
  exact Slice.read_write_of_apart (Field.apart_of_ne h) u _

/-- **A write, bit by bit.** -/
theorem bit_apply (u : Uuid) (w : FieldWrite) (k : Field) (i : ℕ) :
    ((w.apply u).fields.get k).getLsbD i =
      if w.Selects k i then w.value.getLsbD i else (u.fields.get k).getLsbD i := by
  by_cases hk : k = w.field
  · subst hk
    rw [get_apply, blend_bit]
    simp only [Selects, true_and]
  · rw [get_apply_of_ne u hk, if_neg fun h => hk h.1.symm]

/-- **A write replaces the octets of its field**, and no others. -/
theorem octets_apply (u : Uuid) (w : FieldWrite) :
    (w.apply u).octets = u.octets.take w.field.first ++
      (Octets.ofNat w.field.size ((w.apply u).fields.get w.field).toNat ++
        u.octets.drop (w.field.first + w.field.size)) := by
  rw [get_apply, Uuid.get_fields, ← Field.first_eq, ← Field.size_eq, apply_eq]
  exact Slice.octets_write w.field.wholeOctets u _

/-- **Writes to different fields commute.** -/
theorem apply_comm (u : Uuid) (h : w.field ≠ w'.field) :
    w.apply (w'.apply u) = w'.apply (w.apply u) := by
  apply Uuid.ext_fields
  intro k
  apply BitVec.eq_of_getLsbD_eq
  intro i _
  simp only [bit_apply]
  by_cases hw : w.Selects k i
  · -- a bit of the one field is no bit of the other
    have hw' : ¬ w'.Selects k i := fun h' => h (hw.1.trans h'.1.symm)
    rw [if_pos hw, if_neg hw', if_pos hw]
  · rw [if_neg hw, if_neg hw]

/-! ## Writes in a row -/

/-- The UUID after writes, the first one first. -/
def applyAll (u : Uuid) (ws : List FieldWrite) : Uuid := ws.foldl (fun u w => w.apply u) u

/-- The last of the writes that select bit `i` of a field. -/
def lastOn (ws : List FieldWrite) (k : Field) (i : ℕ) : Option FieldWrite :=
  ws.reverse.find? fun w => w.Selects k i

/-- **After any writes, every bit is the last one written to it**, or the one that was there. -/
theorem bit_applyAll (u : Uuid) (ws : List FieldWrite) (k : Field) (i : ℕ) :
    ((applyAll u ws).fields.get k).getLsbD i =
      (lastOn ws k i).elim ((u.fields.get k).getLsbD i) fun w => w.value.getLsbD i := by
  induction ws generalizing u with
  | nil => rfl
  | cons w ws ih =>
    have hlast : lastOn (w :: ws) k i =
        (lastOn ws k i).or (if w.Selects k i then some w else none) := by
      unfold lastOn
      rw [List.reverse_cons, List.find?_append, List.find?_singleton]
      simp
    have hfirst : applyAll u (w :: ws) = applyAll (w.apply u) ws := rfl
    rw [hfirst, ih, hlast, bit_apply]
    cases lastOn ws k i with
    | some x => rfl
    | none => by_cases h : w.Selects k i <;> simp [h]

end FieldWrite

namespace Uuid

/-- **The six fields are independent, and each holds what was last written to it.** A UUID and its
fields determine each other, and the fields are the octets in their order, the most significant one
first. A write gives its field the bits of the value under the mask and leaves the field its other
bits. It changes no other field and no octet outside its own, so writes to different fields commute.
After two writes, and after any number of them, every bit is the last one written to it, or the one
that was there. -/
theorem fields_exact :
    (∀ u, ofFields u.fields = u) ∧ (∀ f, (ofFields f).fields = f) ∧
      (∀ f, (ofFields f).octets = f.octets) ∧
      (∀ (u : Uuid) k, Octets.value ((u.octets.drop k.first).take k.size) =
        (u.fields.get k).toNat) ∧
      (∀ (u : Uuid) (w : FieldWrite), (w.apply u).fields.get w.field =
        (u.fields.get w.field &&& ~~~w.mask) ||| (w.value &&& w.mask)) ∧
      (∀ (u : Uuid) (w : FieldWrite), ∀ k ≠ w.field,
        (w.apply u).fields.get k = u.fields.get k) ∧
      (∀ (u : Uuid) (w : FieldWrite), (w.apply u).octets = u.octets.take w.field.first ++
        (Octets.ofNat w.field.size ((w.apply u).fields.get w.field).toNat ++
          u.octets.drop (w.field.first + w.field.size))) ∧
      (∀ (u : Uuid) (w w' : FieldWrite), w.field ≠ w'.field →
        w.apply (w'.apply u) = w'.apply (w.apply u)) ∧
      (∀ (u : Uuid) (w w' : FieldWrite) k i, ((w'.apply (w.apply u)).fields.get k).getLsbD i =
        if w'.Selects k i then w'.value.getLsbD i
        else if w.Selects k i then w.value.getLsbD i
        else (u.fields.get k).getLsbD i) ∧
      ∀ (u : Uuid) ws k i, ((FieldWrite.applyAll u ws).fields.get k).getLsbD i =
        (FieldWrite.lastOn ws k i).elim ((u.fields.get k).getLsbD i)
          fun w => w.value.getLsbD i := by
  refine ⟨ofFields_fields, fields_ofFields, ?_, value_octets_field, FieldWrite.get_apply, ?_,
    FieldWrite.octets_apply, ?_, ?_, FieldWrite.bit_applyAll⟩
  · intro f
    rw [← octets_fields, fields_ofFields]
  · intro u w k hk
    exact FieldWrite.get_apply_of_ne u hk
  · intro u w w' hne
    exact FieldWrite.apply_comm u hne
  · intro u w w' k i
    rw [FieldWrite.bit_apply, FieldWrite.bit_apply]

/-- The fields that hold version and variant are cleared under their masks, in either order. -/
theorem fields_exact_masked :
    (FieldWrite.timeHiAndVersion 0 0x0fff).field ≠ (FieldWrite.clockHiAndVariant 0 0x3f).field ∧
      (max.setClockHiAndVariant 0 0x3f).setTimeHiAndVersion 0 0x0fff =
        (max.setTimeHiAndVersion 0 0x0fff).setClockHiAndVariant 0 0x3f ∧
      ((max.setTimeHiAndVersion 0 0x0fff).setClockHiAndVariant 0 0x3f).fields =
        ⟨0xffffffff, 0xffff, 0xf000, 0xc0, 0xff, 0xffffffffffff⟩ := by
  have hne : (FieldWrite.timeHiAndVersion 0 0x0fff).field ≠
      (FieldWrite.clockHiAndVariant 0 0x3f).field := by decide
  obtain ⟨-, -, -, -, -, -, -, hcomm, -⟩ := fields_exact
  exact ⟨hne, hcomm max _ _ hne, by decide⟩

end Uuid

end UuidForge
