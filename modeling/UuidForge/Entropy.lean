import UuidForge.Node
import UuidForge.State.Clock

/-!
# Entropy

All random bits come from one stream of octets, which is drawn from in order. Theorems hold for
every stream.
-/

namespace UuidForge

/-- A stream of random octets and how many of them were drawn. -/
structure Entropy where
  stream : Nat → UInt8
  drawn : Nat := 0

namespace Entropy

/-- The stream that repeats a script over and over; an empty script gives zeros. -/
def ofScript (script : Array UInt8) : Entropy where
  stream i := script.getD (i % script.size) 0

/-- The next `n` octets. -/
def draw (n : Nat) (e : Entropy) : Octets × Entropy :=
  ((List.range n).map fun i => e.stream (e.drawn + i), { e with drawn := e.drawn + n })

/-- The next 16 bits, first octet high. -/
def drawWord (e : Entropy) : BitVec 16 × Entropy :=
  let (xs, e) := e.draw 2
  (BitVec.ofNat 16 xs.value, e)

/-- The next clock sequence, out of two octets. -/
def drawSequence (e : Entropy) : ClockSequence × Entropy :=
  let (w, e) := e.drawWord
  (w.setWidth 14, e)

/-- The next node id, marked as random. -/
def drawNode (e : Entropy) : NodeId × Entropy :=
  let (xs, e) := e.draw 6
  ((NodeId.ofOctets xs).asRandom, e)

end Entropy

end UuidForge
