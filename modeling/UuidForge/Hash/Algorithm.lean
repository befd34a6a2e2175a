import UuidForge.Hash.Keccak
import UuidForge.Hash.Md5
import UuidForge.Hash.Sha1
import UuidForge.Hash.Sha2
import UuidForge.Uuid.Version

/-!
# Hash algorithms

The algorithms that name-based UUIDs are made with. MD5 and SHA-1 have versions of their own; all
others share version 8 and are told apart by a hashspace, a UUID that is hashed first.
-/

namespace UuidForge

/-- The algorithms with a known version or hashspace. -/
inductive HashAlgorithm
  | md5
  | sha1
  | sha224
  | sha256
  | sha384
  | sha512
  | sha512_224
  | sha512_256
  | sha3_224
  | sha3_256
  | sha3_384
  | sha3_512
  | shake128
  | shake256
  deriving DecidableEq, Repr

namespace HashAlgorithm

/-- The version of the UUIDs made with an algorithm. -/
def version : HashAlgorithm → Version
  | md5 => .v3
  | sha1 => .v5
  | _ => .v8

/-- The hashspace of an algorithm without a version of its own. -/
def hashspace : HashAlgorithm → Option Uuid
  | md5 => none
  | sha1 => none
  | sha224 => some ⟨0x59031ca3fbdb47fb9f6c0f30e2e83145⟩
  | sha256 => some ⟨0x3fb32780953c44649cfde85dbbe9843d⟩
  | sha384 => some ⟨0xe6800581f333484b8778601ff2b58da8⟩
  | sha512 => some ⟨0x0fde22f2e7ba4fd197539c2ea88fa3f9⟩
  | sha512_224 => some ⟨0x003c2038c4fe4b95a6720c26c1b79542⟩
  | sha512_256 => some ⟨0x9475ad0037694c0796425e7383732306⟩
  | sha3_224 => some ⟨0x9768761fac5a419ea1807ca239e8025a⟩
  | sha3_256 => some ⟨0x2034d66b404745538f8070e593176877⟩
  | sha3_384 => some ⟨0x872fb33926364bddbda6b6dc2a82b1b3⟩
  | sha3_512 => some ⟨0xa4920a5da8a6426c8d14a6cafbe64c7b⟩
  | shake128 => some ⟨0x7ea218f6629a425f9f887439d63296bb⟩
  | shake256 => some ⟨0x2e7fc6a429194edcb0ba7d7062ce4f0a⟩

/-- The hash function of an algorithm. -/
def function : HashAlgorithm → HashFunction
  | md5 => Hash.Md5.function
  | sha1 => Hash.Sha1.function
  | sha224 => Hash.Sha2.sha224
  | sha256 => Hash.Sha2.sha256
  | sha384 => Hash.Sha2.sha384
  | sha512 => Hash.Sha2.sha512
  | sha512_224 => Hash.Sha2.sha512_224
  | sha512_256 => Hash.Sha2.sha512_256
  | sha3_224 => Hash.Keccak.sha3_224
  | sha3_256 => Hash.Keccak.sha3_256
  | sha3_384 => Hash.Keccak.sha3_384
  | sha3_512 => Hash.Keccak.sha3_512
  | shake128 => Hash.Keccak.shake128
  | shake256 => Hash.Keccak.shake256

end HashAlgorithm

end UuidForge
