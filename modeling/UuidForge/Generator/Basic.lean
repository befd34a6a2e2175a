import UuidForge.Generator.Custom
import UuidForge.Generator.NameBased
import UuidForge.Generator.TimeBased
import UuidForge.Generator.UnixTime

/-!
# Generators

Every kind of generator answers the same three requests: a fresh UUID, the UUID of a name, and a
UUID for a local id. A request that a kind has no answer to is refused.
-/

namespace UuidForge

/-- What a generator is asked for. -/
inductive Request
  /-- A new UUID. -/
  | fresh
  /-- The UUID of a name in a namespace. -/
  | named (space : Uuid) (name : Octets)
  /-- A UUID for a domain and a local id. -/
  | dce (domain : LocalDomain) (localId : Option (BitVec 32))
  deriving DecidableEq, Repr

/-- A generator of UUIDs of one version and variant. -/
inductive Generator
  /-- Always the Nil UUID. -/
  | empty
  /-- Always the Max UUID. -/
  | max
  /-- Version 4. -/
  | random
  | timeBased (g : TimeBased)
  | dceSecurity (g : DceSecurity)
  | unixTime (g : UnixTime)
  | nameBased (g : NameBased)
  | custom (g : Custom)

namespace Generator

/-- The version of the UUIDs. -/
def version : Generator → Version
  | empty => .empty
  | max => .max
  | random => .v4
  | timeBased g => g.version
  | dceSecurity _ => .v2
  | unixTime _ => .v7
  | nameBased g => g.version
  | custom _ => .v8

/-- The variant of the UUIDs. -/
def variant : Generator → Variant
  | empty => .ncs
  | max => .reserved
  | _ => .rfc4122

/-- The generator makes UUIDs out of what the caller gives. -/
def requiresInput : Generator → Bool
  | nameBased _ => true
  | _ => false

/-- The random UUID of version 4. -/
def randomUuid : OnHost Uuid := do return (← Host.drawUuid).stamp .v4 .rfc4122

/-- A new UUID. A name-based generator takes the empty name in the Nil namespace, a version 2
generator the user of the host. -/
def fresh : Generator → OnHost (Except Error Uuid × Generator)
  | empty => return (.ok Uuid.nil, empty)
  | max => return (.ok Uuid.max, max)
  | random => do return (.ok (← randomUuid), random)
  | timeBased g => do
    let (r, g) ← g.next
    return (r, timeBased g)
  | dceSecurity g => do
    let (r, g) ← g.next .person none
    return (r, dceSecurity g)
  | unixTime g => do
    let (r, g) ← g.next
    return (r, unixTime g)
  | nameBased g =>
    let (r, g) := g.ofName Uuid.nil []
    return (r, nameBased g)
  | custom g => do
    let (r, g) ← g.next
    return (r, custom g)

/-- The UUID of a name. -/
def named (space : Uuid) (name : Octets) : Generator → OnHost (Except Error Uuid × Generator)
  | nameBased g =>
    let (r, g) := g.ofName space name
    return (r, nameBased g)
  | g => return (.error (.notSupported .nameBased), g)

/-- A UUID for a local id. -/
def dce (d : LocalDomain) (localId : Option (BitVec 32)) :
    Generator → OnHost (Except Error Uuid × Generator)
  | dceSecurity g => do
    let (r, g) ← g.next d localId
    return (r, dceSecurity g)
  | g => return (.error (.notSupported .dceSecurity), g)

/-- **Answers a request.** -/
def answer (g : Generator) : Request → OnHost (Except Error Uuid × Generator)
  | .fresh => g.fresh
  | .named space name => g.named space name
  | .dce d localId => g.dce d localId

/-- Disposes of what a generator holds. Later calls fail if it held anything of its own. -/
def dispose : Generator → Generator
  | nameBased g => nameBased g.dispose
  | g => g

/-- The example generator that belongs to all. -/
def sharedExample : Custom :=
  { epoch := Ticks.epoch2020, nodes := some .nonVolatile, fill := .sharedExample }

/-- Version 1 with the random node id of the state. -/
def version1Random : Generator := timeBased (.bound .v1 (some .nonVolatile))

/-- Version 6 with random node fields. -/
def version6Randomized : Generator := timeBased (.bound .v6 none)

/-- **The generator of a version that belongs to all.** Versions 1 and 6 use the hardware address,
version 7 the shared counter, version 8 the example layout. -/
def ofVersion (v : Version) : Except Error Generator :=
  match v.toNat with
  | 0 => .ok empty
  | 1 => .ok (timeBased (.bound .v1 (some .hardware)))
  | 2 => .ok (dceSecurity { base := .bound .v1 (some .hardware), ids := .system })
  | 3 => .ok (nameBased (.shared .md5))
  | 4 => .ok random
  | 5 => .ok (nameBased (.shared .sha1))
  | 6 => .ok (timeBased (.bound .v6 (some .hardware)))
  | 7 => .ok (unixTime { counter := .shared })
  | 8 => .ok (custom sharedExample)
  | 15 => .ok max
  | _ => .error (.notSupported .reservedVersion)

/-- A new UUID from the generator of a version that belongs to all. -/
def newUuid (v : Version) : OnHost (Except Error Uuid) := do
  match ofVersion v with
  | .error e => return .error e
  | .ok g => return (← g.fresh).1

end Generator

end UuidForge
