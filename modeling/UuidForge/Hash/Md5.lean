import UuidForge.Hash.Block

/-!
# MD5

64 steps in four rounds over 16 little-endian words.
-/

namespace UuidForge.Hash.Md5

/-- The step constants: the first 32 bits of the fractions of `|sin i|`. -/
def constants : Array (BitVec 32) := #[
  0xd76aa478, 0xe8c7b756, 0x242070db, 0xc1bdceee, 0xf57c0faf, 0x4787c62a,
  0xa8304613, 0xfd469501, 0x698098d8, 0x8b44f7af, 0xffff5bb1, 0x895cd7be,
  0x6b901122, 0xfd987193, 0xa679438e, 0x49b40821, 0xf61e2562, 0xc040b340,
  0x265e5a51, 0xe9b6c7aa, 0xd62f105d, 0x02441453, 0xd8a1e681, 0xe7d3fbc8,
  0x21e1cde6, 0xc33707d6, 0xf4d50d87, 0x455a14ed, 0xa9e3e905, 0xfcefa3f8,
  0x676f02d9, 0x8d2a4c8a, 0xfffa3942, 0x8771f681, 0x6d9d6122, 0xfde5380c,
  0xa4beea44, 0x4bdecfa9, 0xf6bb4b60, 0xbebfbc70, 0x289b7ec6, 0xeaa127fa,
  0xd4ef3085, 0x04881d05, 0xd9d4d039, 0xe6db99e5, 0x1fa27cf8, 0xc4ac5665,
  0xf4292244, 0x432aff97, 0xab9423a7, 0xfc93a039, 0x655b59c3, 0x8f0ccc92,
  0xffeff47d, 0x85845dd1, 0x6fa87e4f, 0xfe2ce6e0, 0xa3014314, 0x4e0811a1,
  0xf7537e82, 0xbd3af235, 0x2ad7d2bb, 0xeb86d391]

/-- The rotation of a step. -/
def rotation (i : Nat) : Nat :=
  let amounts := match i / 16 with
    | 0 => [7, 12, 17, 22]
    | 1 => [5, 9, 14, 20]
    | 2 => [4, 11, 16, 23]
    | _ => [6, 10, 15, 21]
  amounts.getD (i % 4) 0

/-- The chaining state. -/
structure State where
  a : BitVec 32
  b : BitVec 32
  c : BitVec 32
  d : BitVec 32

/-- The mix of three words in a step. -/
def mix (i : Nat) (b c d : BitVec 32) : BitVec 32 :=
  match i / 16 with
  | 0 => (b &&& c) ||| (~~~b &&& d)
  | 1 => (d &&& b) ||| (~~~d &&& c)
  | 2 => b ^^^ c ^^^ d
  | _ => c ^^^ (b ||| ~~~d)

/-- The word that a step takes. -/
def wordIndex (i : Nat) : Nat :=
  match i / 16 with
  | 0 => i
  | 1 => (5 * i + 1) % 16
  | 2 => (3 * i + 5) % 16
  | _ => 7 * i % 16

/-- One step. -/
def step (words : Array (BitVec 32)) (s : State) (i : Nat) : State :=
  let sum := s.a + mix i s.b s.c s.d + constants.getD i 0 + words.getD (wordIndex i) 0
  { a := s.d, b := s.b + sum.rotateLeft (rotation i), c := s.b, d := s.c }

/-- The compression function. -/
def compress (s : State) (words : Array (BitVec 32)) : State :=
  let t := (List.range 64).foldl (step words) s
  { a := s.a + t.a, b := s.b + t.b, c := s.c + t.c, d := s.d + t.d }

/-- The chain of MD5. -/
def chain : Chain 32 State where
  order := .little
  start := { a := 0x67452301, b := 0xefcdab89, c := 0x98badcfe, d := 0x10325476 }
  compress := compress

/-- MD5. -/
def function : HashFunction where
  size := 16
  digest message :=
    let s := chain.run message
    leadingOctets .little [s.a, s.b, s.c, s.d] 16

end UuidForge.Hash.Md5
