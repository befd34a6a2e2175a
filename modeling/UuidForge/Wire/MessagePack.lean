import UuidForge.Uuid.Text

/-!
# UUIDs in MessagePack

In MessagePack a UUID is an item of 16 octets in the bin family. A str item with the canonical text
is read as well, and one that is not UTF-8 is taken as octets.
-/

namespace UuidForge

namespace Wire.MessagePack

/-- An item of one of the two families that hold octets. -/
inductive Item
  | bin (content : Octets)
  | str (content : Octets)
  deriving DecidableEq, Repr

/-- The first `n` octets, if there are as many. -/
def take? (n : Nat) (xs : Octets) : Option Octets :=
  if n ≤ xs.length then some (xs.take n) else none

/-- The octets behind a length that is written in `width` octets. -/
def sized? (width : Nat) (xs : Octets) : Option Octets := do
  let length ← take? width xs
  take? length.value (xs.drop width)

/-- **Reads an item**: a short str item has its length in the first octet, all others behind it.
What follows the item is not looked at. -/
def item? : Octets → Option Item
  | [] => none
  | tag :: xs =>
    match tag.toNat with
    | 0xc4 => (sized? 1 xs).map .bin
    | 0xc5 => (sized? 2 xs).map .bin
    | 0xc6 => (sized? 4 xs).map .bin
    | 0xd9 => (sized? 1 xs).map .str
    | 0xda => (sized? 2 xs).map .str
    | 0xdb => (sized? 4 xs).map .str
    | t => if 0xa0 ≤ t ∧ t < 0xc0 then (take? (t - 0xa0) xs).map .str else none

end Wire.MessagePack

namespace Uuid

/-- The UUID of exactly 16 octets. -/
def ofOctets? (xs : Octets) : Option Uuid := if xs.length = 16 then some (ofOctets xs) else none

/-- The MessagePack item of a UUID. -/
def toMessagePack (u : Uuid) : Octets := 0xc4 :: 16 :: u.octets

/-- The UUID in a MessagePack item. -/
def ofMessagePack? (xs : Octets) : Option Uuid :=
  match Wire.MessagePack.item? xs with
  | some (.bin content) => ofOctets? content
  | some (.str content) =>
    match content.text? with
    | some s => parse? s
    | none => ofOctets? content
  | none => none

end Uuid

end UuidForge
