import UuidForge.State.Clock

/-!
# The state record

What outlives a process is kept in a record of 32 octets, little-endian:

| offset | size | field |
|---|---|---|
| 0 | 4 | tag, always 4122 |
| 4 | 4 | flags |
| 8 | 8 | timestamp, in ticks since 1970 |
| 16 | 4 | clock sequences: hardware domain low, random domain high |
| 20 | 6 | node id of the hardware domain |
| 26 | 6 | random node id |

A flag says for each field whether it is present. The upper half of the flags tells of a record
with one sequence for each domain; while all of that half is zero, the low half may tell of a joint
sequence for both.
-/

namespace UuidForge

/-- Which file operation failed. -/
inductive StorageOperation
  | read
  | write
  deriving DecidableEq, Repr

/-- Why a state file cannot be read or written. -/
inductive StorageError
  | fileNotFound (path : String)
  /-- The record is not complete. -/
  | unexpectedEnd
  /-- The record starts with another tag. -/
  | unknownTag (tag : Int)
  /-- The file system refused. -/
  | io
  deriving DecidableEq, Repr

/-- The error in words; for a refusal of the file system, without its reasons. -/
def StorageError.message : StorageError → String
  | fileNotFound path => "state file not found: " ++ path
  | unexpectedEnd => "unexpected end of state data"
  | unknownTag tag => "invalid state data: unknown format tag " ++ toString tag
  | io => "state file I/O failed"

/-- The contents of a state file. -/
structure StateRecord where
  timestamp : Option Ticks := none
  physicalSequence : Option (BitVec 16) := none
  randomSequence : Option (BitVec 16) := none
  physicalNode : Option NodeId := none
  randomNode : Option NodeId := none
  deriving DecidableEq, Repr

namespace StateRecord

/-- The format tag. -/
def tag : Nat := 4122

/-- The length of a record. -/
def size : Nat := 32

/-- Bit numbers of the flags. -/
def timestampFlag : Nat := 0
def jointFlag : Nat := 1
def physicalNodeFlag : Nat := 2
def randomNodeFlag : Nat := 3
def physicalSequenceFlag : Nat := 16
def randomSequenceFlag : Nat := 17

/-- The number of a flag if `present`, else zero. -/
def flagBit {α : Type} (field : Option α) (flag : Nat) : Nat :=
  if field.isSome then 1 <<< flag else 0

/-- The flags of the fields that are present. -/
def flags (r : StateRecord) : Nat :=
  flagBit r.timestamp timestampFlag + flagBit r.physicalNode physicalNodeFlag +
    flagBit r.randomNode randomNodeFlag + flagBit r.physicalSequence physicalSequenceFlag +
    flagBit r.randomSequence randomSequenceFlag

/-- The 32 octets of a record. Absent fields are written as zeros. -/
def encode (r : StateRecord) : Octets :=
  Octets.ofNatLittle 4 tag ++ Octets.ofNatLittle 4 r.flags ++
    Octets.ofNatLittle 8 (r.timestamp.getD 0).toUInt64.toNat ++
    Octets.ofNatLittle 2 (r.physicalSequence.getD 0).toNat ++
    Octets.ofNatLittle 2 (r.randomSequence.getD 0).toNat ++
    (r.physicalNode.getD 0).octets ++ (r.randomNode.getD 0).octets

/-- The little-endian number in `n` octets from offset `i`. -/
def numberAt (xs : Octets) (i n : Nat) : Nat := Octets.valueLittle ((xs.drop i).take n)

/-- The node id from offset `i`. -/
def nodeAt (xs : Octets) (i : Nat) : NodeId := NodeId.ofOctets ((xs.drop i).take 6)

/-- The clock sequence in two octets from offset `i`; its upper two bits are dropped. -/
def sequenceAt (xs : Octets) (i : Nat) : BitVec 16 :=
  (BitVec.ofNat 14 (numberAt xs i 2)).setWidth 16

/-- The fields that the flags of a complete record declare present. -/
def fieldsOf (xs : Octets) : StateRecord :=
  let flags := numberAt xs 4 4
  let keep {α : Type} (flag : Nat) (a : α) : Option α := if flags.testBit flag then some a else none
  let independent := flags >>> 16 ≠ 0
  { timestamp := keep timestampFlag (Int64.ofBitVec (BitVec.ofNat 64 (numberAt xs 8 8)))
    physicalSequence :=
      keep (if independent then physicalSequenceFlag else jointFlag) (sequenceAt xs 16)
    randomSequence :=
      if independent then keep randomSequenceFlag (sequenceAt xs 18)
      else keep jointFlag (sequenceAt xs 16)
    physicalNode := keep physicalNodeFlag (nodeAt xs 20)
    randomNode := keep randomNodeFlag (nodeAt xs 26) }

/-- **Reads a record** from the front of a file. The tag is looked at first. -/
def decode (xs : Octets) : Except StorageError StateRecord :=
  if xs.length < 4 then .error .unexpectedEnd
  else if numberAt xs 0 4 ≠ tag then .error (.unknownTag (BitVec.ofNat 32 (numberAt xs 0 4)).toInt)
  else if xs.length < size then .error .unexpectedEnd
  else .ok (fieldsOf xs)

@[simp] theorem length_encode (r : StateRecord) : r.encode.length = size := by
  simp [encode, NodeId.octets, size]

end StateRecord

end UuidForge
