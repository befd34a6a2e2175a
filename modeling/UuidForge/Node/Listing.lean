import UuidForge.Files.Tree
import UuidForge.Node
import UuidForge.Text

/-!
# Interfaces in the file system

Linux shows every network interface as a directory with the files `address`, `operstate` and
`type`. An entry whose address cannot be read is passed over; the other two files may be missing.
-/

namespace UuidForge.Interface

/-- The interface type of the loopback interface. -/
def loopbackType : Nat := 772

/-- The interface types of tunnels. -/
def tunnelTypes : List Nat := [768, 769, 776, 778, 823, 65534]

/-- A hardware address: six hexadecimal numbers below 256, separated by colons. -/
def address? (cs : List Char) : Option NodeId := do
  let octets ← (Text.splitAt ':' cs).mapM (Text.number? 16 256)
  if octets.length = 6 then some (BitVec.ofNat 48 (Radix.value 256 octets)) else none

/-- The text of a file without white space at its ends. -/
def trimmed? (t : FileTree) (p : NamePath) : Option (List Char) :=
  (t.text? p).map fun s => Text.trim s.toList

/-- The interface that a directory shows. -/
def ofDirectory? (t : FileTree) (p : NamePath) : Option Interface := do
  let address ← address? (← trimmed? t (p ++ ["address"]))
  let kind := ((trimmed? t (p ++ ["type"])).bind (Text.number? 10 0x100000000)).getD 0
  return {
    address
    isUp := trimmed? t (p ++ ["operstate"]) = some "up".toList
    isLoopback := kind = loopbackType
    isTunnel := tunnelTypes.contains kind }

/-- **The interfaces shown below a directory**, in the order of their names. -/
def listing (t : FileTree) (p : NamePath) : List Interface :=
  (t.names p).filterMap fun name => ofDirectory? t (p ++ [name])

end UuidForge.Interface
