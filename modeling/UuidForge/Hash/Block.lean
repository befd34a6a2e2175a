import UuidForge.Octets

/-!
# Hash functions

A hash function maps octet strings to digests of one length. Most of them chain blocks: the message
is padded with a one bit, zeros and its own length, cut into blocks of 16 words, and a compression
function takes the blocks in turn.
-/

namespace UuidForge

/-- A hash function with digests of `size` octets. -/
structure HashFunction where
  size : Nat
  digest : Array UInt8 → Vector UInt8 size

namespace Hash

/-- The order in which a word is written as octets. -/
inductive ByteOrder
  | big
  | little
  deriving DecidableEq, Repr

namespace ByteOrder

/-- The number in `n` octets from offset `i`; octets past the end read as zero. -/
def number (order : ByteOrder) (xs : Array UInt8) (i n : Nat) : Nat :=
  match order with
  | big => n.fold (fun k _ v => v * 256 + (xs.getD (i + k) 0).toNat) 0
  | little => n.fold (fun k _ v => v + (xs.getD (i + k) 0).toNat <<< (8 * k)) 0

/-- The octets of a number. -/
def octets (order : ByteOrder) (n v : Nat) : Octets :=
  match order with
  | big => Octets.ofNat n v
  | little => Octets.ofNatLittle n v

end ByteOrder

/-- The first `n` octets of a list of words. -/
def leadingOctets {w : Nat} (order : ByteOrder) (words : List (BitVec w)) (n : Nat) :
    Vector UInt8 n :=
  let xs := (words.flatMap fun x => order.octets (w / 8) x.toNat).toArray
  Vector.ofFn fun i => xs.getD i 0

/-- A hash function that chains blocks of 16 words of `w` bits. -/
structure Chain (w : Nat) (State : Type) where
  order : ByteOrder
  start : State
  compress : State → Array (BitVec w) → State

namespace Chain

variable {w : Nat} {State : Type}

/-- The octets of a block. -/
def blockSize (_ : Chain w State) : Nat := 16 * (w / 8)

/-- What is appended to a message of `n` octets: a one bit, zeros and the length in bits in two
words, up to the end of a block. -/
def padding (c : Chain w State) (n : Nat) : Octets :=
  let lengthSize := 2 * (w / 8)
  let zeros := (c.blockSize - (n + 1 + lengthSize) % c.blockSize) % c.blockSize
  0x80 :: (List.replicate zeros 0 ++ c.order.octets lengthSize (8 * n))

/-- Block `i` of a padded message. -/
def block (c : Chain w State) (padded : Array UInt8) (i : Nat) : Array (BitVec w) :=
  Array.ofFn fun k : Fin 16 =>
    BitVec.ofNat w (c.order.number padded (i * c.blockSize + k * (w / 8)) (w / 8))

/-- The state after all blocks of a message. -/
def run (c : Chain w State) (message : Array UInt8) : State :=
  let padded := message ++ (c.padding message.size).toArray
  (padded.size / c.blockSize).fold (fun i _ s => c.compress s (c.block padded i)) c.start

end Chain

end Hash

end UuidForge
