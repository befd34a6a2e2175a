import UuidForge.Hash.Algorithm
import UuidForge.Hash.Hasher
import UuidForge.Uuid.Layout

/-!
# Name-based generators

A name-based UUID is the head of a digest of a namespace and a name, after the hashspace if there is
one, with version and variant written over it.
-/

namespace UuidForge

/-- The UUID of a version for the head of a digest. -/
def digestUuid (v : Version) (digest : Octets) : Except Error Uuid := do
  let block := if v = .v8 then Block.custom else .hash
  let u ← (Layout.ofVersion v).setData Uuid.nil block (Uuid.ofOctets digest)
  return u.stamp v .rfc4122

/-- A generator of name-based UUIDs. -/
structure NameBased where
  version : Version
  hashspace : Option Uuid
  pool : HasherPool
  /-- The generator belongs to all and is never disposed of. -/
  isShared : Bool := false

namespace NameBased

/-- A generator for an algorithm. -/
def ofAlgorithm (a : HashAlgorithm) : NameBased where
  version := a.version
  hashspace := a.hashspace
  pool := { function := a.function }

/-- The generator for an algorithm that belongs to all. -/
def shared (a : HashAlgorithm) : NameBased := { ofAlgorithm a with isShared := true }

/-- A generator of version 8 for a hash function under a hashspace. -/
def ofFunction (hashspace : Uuid) (f : HashFunction) : NameBased where
  version := .v8
  hashspace := some hashspace
  pool := { function := f }

/-- What is hashed: the hashspace if there is one, the namespace, the name. -/
def parts (g : NameBased) (space : Uuid) (name : Octets) : List Octets :=
  g.hashspace.toList.map Uuid.octets ++ [space.octets, name]

/-- **The UUID of a name.** -/
def ofName (g : NameBased) (space : Uuid) (name : Octets) : Except Error Uuid × NameBased :=
  let (digest, pool) := g.pool.digest (g.parts space name)
  (digest.bind (digestUuid g.version), { g with pool })

/-- Refuses all later calls, unless the generator belongs to all. -/
def dispose (g : NameBased) : NameBased :=
  if g.isShared then g else { g with pool := g.pool.dispose }

end NameBased

end UuidForge
