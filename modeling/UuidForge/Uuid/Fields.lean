import UuidForge.Uuid.Slice

/-!
# The six classic fields

The field layout of RFC 4122 cuts the 128 bits into six runs: `time_low` (32 bits), `time_mid`
(16), `time_hi_and_version` (16), `clock_seq_hi_and_variant` (8), `clock_seq_low` (8) and `node`
(48). Two of them share their run with version and variant, so they are written under a mask.
-/

namespace UuidForge

namespace Slice

abbrev timeLow : Slice := ⟨96, 32⟩
abbrev timeMid : Slice := ⟨80, 16⟩
abbrev timeHiAndVersion : Slice := ⟨64, 16⟩
abbrev clockHiAndVariant : Slice := ⟨56, 8⟩
abbrev clockLow : Slice := ⟨48, 8⟩
abbrev node : Slice := ⟨0, 48⟩

/-- The six fields from the first octet to the last. -/
def fields : List Slice := [timeLow, timeMid, timeHiAndVersion, clockHiAndVariant, clockLow, node]

end Slice

/-- The values of the six fields, version and variant bits included. -/
structure Fields where
  timeLow : BitVec 32
  timeMid : BitVec 16
  timeHiAndVersion : BitVec 16
  clockHiAndVariant : BitVec 8
  clockLow : BitVec 8
  node : BitVec 48
  deriving DecidableEq, Repr

namespace Uuid

/-- The six fields of a UUID. -/
def fields (u : Uuid) : Fields where
  timeLow := Slice.timeLow.read u
  timeMid := Slice.timeMid.read u
  timeHiAndVersion := Slice.timeHiAndVersion.read u
  clockHiAndVariant := Slice.clockHiAndVariant.read u
  clockLow := Slice.clockLow.read u
  node := Slice.node.read u

/-- The UUID with the given fields. -/
def ofFields (f : Fields) : Uuid :=
  ⟨f.timeLow ++ f.timeMid ++ f.timeHiAndVersion ++ f.clockHiAndVariant ++ f.clockLow ++ f.node⟩

def setTimeLow (u : Uuid) (v : BitVec 32) : Uuid := Slice.timeLow.write u v

def setTimeMid (u : Uuid) (v : BitVec 16) : Uuid := Slice.timeMid.write u v

/-- Writes the bits of `time_hi_and_version` that `mask` selects. -/
def setTimeHiAndVersion (u : Uuid) (v mask : BitVec 16) : Uuid :=
  Slice.timeHiAndVersion.writeMasked u v mask

/-- Writes the bits of `clock_seq_hi_and_variant` that `mask` selects. -/
def setClockHiAndVariant (u : Uuid) (v mask : BitVec 8) : Uuid :=
  Slice.clockHiAndVariant.writeMasked u v mask

def setClockLow (u : Uuid) (v : BitVec 8) : Uuid := Slice.clockLow.write u v

def setNode (u : Uuid) (v : BitVec 48) : Uuid := Slice.node.write u v

end Uuid

end UuidForge
