import UuidForge.Hash.Block

/-!
# SHA-1

80 steps over a schedule that extends the 16 big-endian words of a block.
-/

namespace UuidForge.Hash.Sha1

/-- The chaining state. -/
structure State where
  a : BitVec 32
  b : BitVec 32
  c : BitVec 32
  d : BitVec 32
  e : BitVec 32

/-- The 80 words of the schedule. -/
def schedule (words : Array (BitVec 32)) : Array (BitVec 32) :=
  (List.range' 16 64).foldl (fun w t =>
    let earlier (back : Nat) := w.getD (t - back) 0
    w.push ((earlier 3 ^^^ earlier 8 ^^^ earlier 14 ^^^ earlier 16).rotateLeft 1)) words

/-- The mix of three words in a step, with the constant of its round added. -/
def mix (i : Nat) (b c d : BitVec 32) : BitVec 32 :=
  match i / 20 with
  | 0 => ((b &&& c) ^^^ (~~~b &&& d)) + 0x5a827999
  | 1 => (b ^^^ c ^^^ d) + 0x6ed9eba1
  | 2 => ((b &&& c) ^^^ (b &&& d) ^^^ (c &&& d)) + 0x8f1bbcdc
  | _ => (b ^^^ c ^^^ d) + 0xca62c1d6

/-- One step. -/
def step (w : Array (BitVec 32)) (s : State) (i : Nat) : State :=
  { a := s.a.rotateLeft 5 + mix i s.b s.c s.d + s.e + w.getD i 0
    b := s.a
    c := s.b.rotateLeft 30
    d := s.c
    e := s.d }

/-- The compression function. -/
def compress (s : State) (words : Array (BitVec 32)) : State :=
  let t := (List.range 80).foldl (step (schedule words)) s
  { a := s.a + t.a, b := s.b + t.b, c := s.c + t.c, d := s.d + t.d, e := s.e + t.e }

/-- The chain of SHA-1. -/
def chain : Chain 32 State where
  order := .big
  start := { a := 0x67452301, b := 0xefcdab89, c := 0x98badcfe, d := 0x10325476, e := 0xc3d2e1f0 }
  compress := compress

/-- SHA-1. -/
def function : HashFunction where
  size := 20
  digest message :=
    let s := chain.run message
    leadingOctets .big [s.a, s.b, s.c, s.d, s.e] 20

end UuidForge.Hash.Sha1
