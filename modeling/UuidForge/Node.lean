import UuidForge.Octets

/-!
# Node ids

A node id has six octets. The lowest bit of the first octet is the multicast bit, which no hardware
address of a single interface has set; random node ids carry it.

A node id can be the hardware address of a network interface. The best one belongs to an interface
that is up and leads to real hardware; failing that, any address will do that is not zero and not of
a loopback interface.
-/

namespace UuidForge

/-- A node id, octet 0 in the most significant place. -/
abbrev NodeId := BitVec 48

namespace NodeId

/-- The multicast bit. -/
def multicastBit : NodeId := 0x010000000000

/-- Marks a node id as random. -/
def asRandom (n : NodeId) : NodeId := n ||| multicastBit

/-- The node id of six octets. -/
def ofOctets (xs : Octets) : NodeId := BitVec.ofNat 48 xs.value

/-- The six octets of a node id. -/
def octets (n : NodeId) : Octets := Octets.ofNat 6 n.toNat

/-- Octet `i` of a node id. -/
def octet (n : NodeId) (i : Nat) : BitVec 8 := n.extractLsb' (8 * (5 - i)) 8

end NodeId

/-! ## Network interfaces -/

/-- A network interface. -/
structure Interface where
  address : NodeId
  isUp : Bool
  isLoopback : Bool
  isTunnel : Bool
  deriving DecidableEq, Repr

namespace Interface

/-- The address can serve as a node id. -/
def isUsable (i : Interface) : Bool := i.address != 0 && !i.isLoopback

/-- The address is a good node id. -/
def isPreferred (i : Interface) : Bool := i.isUsable && i.isUp && !i.isTunnel

/-- **The node id that a list of interfaces gives**: the first preferred address, else the first
usable one. -/
def select? (is : List Interface) : Option NodeId :=
  ((is.find? isPreferred).or (is.find? isUsable)).map address

/-- A selected address is not zero and belongs to an interface that is no loopback. -/
theorem usable_of_select? {is : List Interface} {n : NodeId} (h : select? is = some n) :
    ∃ i ∈ is, i.address = n ∧ n ≠ 0 ∧ i.isLoopback = false := by
  obtain ⟨i, hi, rfl⟩ := Option.map_eq_some_iff.1 h
  have hu : i ∈ is ∧ i.isUsable = true := by
    rcases Option.or_eq_some_iff.1 hi with h | ⟨-, h⟩
    · refine ⟨List.mem_of_find?_eq_some h, ?_⟩
      have := List.find?_some h
      simp only [isPreferred, Bool.and_eq_true] at this
      exact this.1.1
    · exact ⟨List.mem_of_find?_eq_some h, List.find?_some h⟩
  have := hu.2
  simp only [isUsable, Bool.and_eq_true, bne_iff_ne, ne_eq, Bool.not_eq_true'] at this
  exact ⟨i, hu.1, rfl, this.1, this.2⟩

end Interface

end UuidForge
