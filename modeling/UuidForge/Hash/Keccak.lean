import UuidForge.Hash.Block

/-!
# SHA-3 and SHAKE

A sponge over the Keccak permutation of 25 lanes of 64 bits. The message is padded to whole blocks
of the rate, each block is added to the first lanes, and the digest is read from the first lanes.
All digests here are shorter than a block.
-/

namespace UuidForge.Hash.Keccak

/-- The lanes; lane `x + 5 * y` stands in column `x` and row `y`. -/
abbrev State := Vector (BitVec 64) 25

/-- The rotation of each lane. -/
def rotation : Vector Nat 25 :=
  #v[0, 1, 62, 28, 27, 36, 44, 6, 55, 20, 3, 10, 43, 25, 39, 41, 45, 15, 21, 8, 18, 2, 61, 56, 14]

/-- The constants of the 24 rounds. -/
def roundConstants : List (BitVec 64) := [
  0x0000000000000001, 0x0000000000008082, 0x800000000000808a, 0x8000000080008000,
  0x000000000000808b, 0x0000000080000001, 0x8000000080008081, 0x8000000000008009,
  0x000000000000008a, 0x0000000000000088, 0x0000000080008009, 0x000000008000000a,
  0x000000008000808b, 0x800000000000008b, 0x8000000000008089, 0x8000000000008003,
  0x8000000000008002, 0x8000000000000080, 0x000000000000800a, 0x800000008000000a,
  0x8000000080008081, 0x8000000000008080, 0x0000000080000001, 0x8000000080008008]

/-- Adds to every lane the parities of two neighbouring columns. -/
def theta (s : State) : State :=
  let parity : Vector (BitVec 64) 5 :=
    Vector.ofFn fun x =>
      s[x.val] ^^^ s[x.val + 5] ^^^ s[x.val + 10] ^^^ s[x.val + 15] ^^^ s[x.val + 20]
  let effect : Vector (BitVec 64) 5 :=
    Vector.ofFn fun x => parity[(x.val + 4) % 5] ^^^ (parity[(x.val + 1) % 5]).rotateLeft 1
  Vector.ofFn fun i => s[i] ^^^ effect[i.val % 5]

/-- Rotates every lane and moves it to its new place. -/
def rhoPi (s : State) : State :=
  Vector.ofFn fun i =>
    let x := i.val % 5
    let y := i.val / 5
    (s[(x + 3 * y) % 5 + 5 * x]).rotateLeft rotation[(x + 3 * y) % 5 + 5 * x]

/-- Combines every lane with the next two of its row. -/
def chi (s : State) : State :=
  Vector.ofFn fun i =>
    let x := i.val % 5
    let y := i.val / 5
    s[i] ^^^ (~~~s[(x + 1) % 5 + 5 * y] &&& s[(x + 2) % 5 + 5 * y])

/-- One round. -/
def round (s : State) (constant : BitVec 64) : State :=
  let s := chi (rhoPi (theta s))
  s.set 0 (s[0] ^^^ constant)

/-- The permutation. -/
def permute (s : State) : State := roundConstants.foldl round s

/-- The end of a padded message of `n` octets: the suffix, zeros, and a one as the last bit. -/
def padding (rate : Nat) (suffix : UInt8) (n : Nat) : Octets :=
  let missing := rate - n % rate
  if missing = 1 then [suffix ||| 0x80]
  else suffix :: (List.replicate (missing - 2) 0 ++ [0x80])

/-- Adds a block of the message to the state. -/
def absorb (rate : Nat) (padded : Array UInt8) (s : State) (i : Nat) : State :=
  permute (Vector.ofFn fun k =>
    if k.val < rate / 8 then
      s[k] ^^^ BitVec.ofNat 64 (ByteOrder.little.number padded (i * rate + 8 * k.val) 8)
    else s[k])

/-- The state after a message. -/
def run (rate : Nat) (suffix : UInt8) (message : Array UInt8) : State :=
  let padded := message ++ (padding rate suffix message.size).toArray
  (List.range (padded.size / rate)).foldl (absorb rate padded) (Vector.replicate 25 0)

/-- A sponge with blocks of `rate` octets. -/
def function (rate : Nat) (suffix : UInt8) (size : Nat) : HashFunction where
  size := size
  digest message := leadingOctets .little (run rate suffix message).toList size

/-- The suffix of SHA-3 messages. -/
def sha3Suffix : UInt8 := 0x06

/-- The suffix of SHAKE messages. -/
def shakeSuffix : UInt8 := 0x1f

/-- SHA3-224. -/
def sha3_224 : HashFunction := function 144 sha3Suffix 28
/-- SHA3-256. -/
def sha3_256 : HashFunction := function 136 sha3Suffix 32
/-- SHA3-384. -/
def sha3_384 : HashFunction := function 104 sha3Suffix 48
/-- SHA3-512. -/
def sha3_512 : HashFunction := function 72 sha3Suffix 64
/-- SHAKE128, read out to 256 bits. -/
def shake128 : HashFunction := function 168 shakeSuffix 32
/-- SHAKE256, read out to 512 bits. -/
def shake256 : HashFunction := function 136 shakeSuffix 64

end UuidForge.Hash.Keccak
