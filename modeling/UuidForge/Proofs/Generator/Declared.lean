import UuidForge.Proofs.Clock.Answer
import UuidForge.Proofs.Generator.Use
import UuidForge.Proofs.NameBased.History
import UuidForge.Proofs.UnixTime.Await
import UuidForge.Proofs.UnixTime.Layout

/-!
# What generators declare

A generator declares a version and a variant. On every path to a UUID they are stamped last, over
whatever bits stand there, and a stamp touches no other bit.

* `Layout.version_eq`, `Layout.variant_eq`: every layout reads the version and the variant that a
  UUID carries.
* `Generator.carries_of_answer`: **every UUID carries what its generator declares.**
* `Generator.madeOf_of_answer`: **all other bits are the ones that were drawn, hashed or filled
  in.**
-/

namespace UuidForge

/-- **Every layout reads the version of a UUID**, though from another place than the UUID does. -/
theorem Layout.version_eq (l : Layout) (u : Uuid) : l.version u = u.version := by
  have hbits : (Slice.timeHiAndVersion.read u >>> 12).setWidth 4 = Slice.version.read u := by
    refine BitVec.eq_of_getLsbD_eq fun i hi => ?_
    have hin : 12 + i < 16 := by omega
    have hat : 64 + (12 + i) = 76 + i := by omega
    rw [BitVec.getLsbD_setWidth, BitVec.getLsbD_ushiftRight, Slice.read_bit, Slice.read_bit]
    simp [hi, hin, hat]
  exact congrArg Version.mk hbits

theorem Layout.variant_eq (l : Layout) (u : Uuid) : l.variant u = u.variant := rfl

namespace Uuid

/-- **A UUID carries a version and a variant**, read from the UUID itself or through any layout. -/
structure Carries (u : Uuid) (v : Version) (w : Variant) : Prop where
  version : u.version = v
  variant : u.variant = w
  layoutVersion : ∀ l : Layout, l.version u = v
  layoutVariant : ∀ l : Layout, l.variant u = w

variable {u : Uuid} {v : Version} {w : Variant}

theorem Carries.intro (hv : u.version = v) (hw : u.variant = w) : u.Carries v w where
  version := hv
  variant := hw
  layoutVersion l := (l.version_eq u).trans hv
  layoutVariant l := (l.variant_eq u).trans hw

theorem carries_stamp (u : Uuid) (v : Version) (w : Variant) : (u.stamp v w).Carries v w :=
  .intro (u.version_stamp v w) (u.variant_stamp v w)

end Uuid

/-- A UUID of a counter value is stamped last. -/
theorem CounterValue.stamp_of_uuid {v : CounterValue} {u x : Uuid} (h : v.uuid u = .ok x) :
    ∃ y : Uuid, x = y.stamp .v7 .rfc4122 := by
  obtain ⟨n, -, rfl⟩ := uuid_eq_ok_iff.1 h
  exact ⟨_, rfl⟩

/-- A generator of version 7 hands out stamped UUIDs. -/
theorem UnixTime.stamp_of_next {g : UnixTime} {h : Host} {u : Uuid} (hu : (g.next h).1.1 = .ok u) :
    ∃ y : Uuid, u = y.stamp .v7 .rfc4122 := by
  rcases g.next_spec h with ⟨v, x, -, -, -, -, hx, -⟩ | ⟨hx, -⟩
  · rw [hx] at hu
    exact CounterValue.stamp_of_uuid hu
  · rw [hx] at hu
    cases hu

theorem DceSecurity.stamp_of_next {g : DceSecurity} {d : LocalDomain} {given : Option (BitVec 32)}
    {h : Host} {u : Uuid} (hu : (g.next d given h).1.1 = .ok u) :
    ∃ y : Uuid, u = y.stamp .v2 .rfc4122 := by
  rcases g.stamp?_cases d given h with ⟨localId, hl, -⟩ | ⟨e, hl, -⟩
  · rw [g.next_of_ok hl] at hu
    exact TimeStamp.stamp_of_dceUuid hu
  · rw [g.next_of_error hl] at hu
    cases hu

namespace Custom

/-- **What the fill leaves** in the random octets, before they are stamped. -/
def filled (g : Custom) : OnHost (Except Error Uuid) := do
  let (t, _) ← g.source.read
  let (node, _) ← readNode g.nodes
  let u ← Host.drawUuid
  let (r, _) ← g.fill.run { time := t - g.epoch, node } u
  return r

theorem next_eq (g : Custom) (h : Host) :
    (g.next h).1.1 = (g.filled h).1.map fun u => u.stamp .v8 .rfc4122 := rfl

theorem stamp_of_next {g : Custom} {h : Host} {u : Uuid} (hu : (g.next h).1.1 = .ok u) :
    ∃ x, (g.filled h).1 = .ok x ∧ u = x.stamp .v8 .rfc4122 := by
  rw [next_eq] at hu
  cases hx : (g.filled h).1 with
  | error e =>
    rw [hx] at hu
    cases hu
  | ok x =>
    rw [hx] at hu
    exact ⟨x, rfl, (Except.ok.inj hu).symm⟩

end Custom

namespace NameBased

variable {g : NameBased} {space : Uuid} {name : Octets} {u : Uuid}

/-- **The UUID of a name**: version and variant, and all other bits of the digest. -/
theorem ofName_spec (hg : g.pool.Ready) (hu : (g.ofName space name).1 = .ok u) :
    u.Carries g.version .rfc4122 ∧ u.payload =
      (Uuid.ofOctets (HasherPool.head g.pool.function (g.parts space name).flatten)).payload := by
  have hserves : g.pool.Serves g.pool.function g.pool.disposed := ⟨hg, rfl, rfl⟩
  have hu : (g.pool.digest (g.parts space name)).1.bind (digestUuid g.version) = .ok u := hu
  rw [HasherPool.digest_of_serves hserves, HasherPool.expected] at hu
  -- only a digest of enough octets has a UUID
  split at hu
  · cases hu
  · split at hu
    · cases hu
    · have hu : digestUuid g.version (HasherPool.head g.pool.function
          (g.parts space name).flatten) = .ok u := hu
      obtain ⟨x, hx, hv, hw, hp⟩ := digestUuid_spec (isNameBased_of_digestUuid hu) _
      rw [hx] at hu
      cases hu
      exact ⟨.intro hv hw, hp⟩

end NameBased

namespace Generator

/-- **What a UUID is made of** beside version and variant: the octets drawn for it, the head of the
digest of a name, or what a fill has left. -/
def MadeOf (g : Generator) (q : Request) (h : Host) (u : Uuid) : Prop :=
  match g with
  | random => u.payload = (Uuid.ofOctets (h.entropy.draw 16).1).payload
  | nameBased g => ∃ space name, q.name? = some (space, name) ∧ u.payload =
      (Uuid.ofOctets (HasherPool.head g.pool.function (g.parts space name).flatten)).payload
  | custom g => ∃ x, (g.filled h).1 = .ok x ∧ u.payload = x.payload
  | _ => True

variable {g : Generator} {q : Request} {h : Host} {u : Uuid}

/-- Both facts about a generator of names. -/
theorem nameBased_of_answer {g : NameBased} (hg : g.pool.Ready)
    (hu : ((nameBased g).answer q h).1.1 = .ok u) :
    u.Carries g.version .rfc4122 ∧ (nameBased g).MadeOf q h u := by
  rw [answer_nameBased] at hu
  cases hq : q.name? with
  | none =>
    rw [hq] at hu
    cases hu
  | some p =>
    rw [hq] at hu
    obtain ⟨hc, hp⟩ := NameBased.ofName_spec hg hu
    exact ⟨hc, p.1, p.2, hq, hp⟩

/-- **Every UUID carries what its generator declares.** -/
theorem carries_of_answer (hg : g.Ready) (hu : (g.answer q h).1.1 = .ok u) :
    u.Carries g.version g.variant := by
  cases g with
  | nameBased g => exact (nameBased_of_answer hg hu).1
  | empty =>
    cases q with
    | fresh => cases hu; exact .intro rfl rfl
    | named | dce => cases hu
  | max =>
    cases q with
    | fresh => cases hu; exact .intro rfl rfl
    | named | dce => cases hu
  | random =>
    cases q with
    | fresh => cases hu; exact Uuid.carries_stamp ..
    | named | dce => cases hu
  | timeBased g =>
    cases q with
    | fresh =>
      rw [answer_fresh] at hu
      obtain ⟨x, rfl⟩ := TimeStamp.stamp_of_uuid hu
      exact x.carries_stamp g.version .rfc4122
    | named | dce => cases hu
  | dceSecurity g =>
    cases q with
    | fresh =>
      have hu : (g.next .person none h).1.1 = .ok u := hu
      obtain ⟨x, rfl⟩ := DceSecurity.stamp_of_next hu
      exact x.carries_stamp .v2 .rfc4122
    | dce d localId =>
      have hu : (g.next d localId h).1.1 = .ok u := hu
      obtain ⟨x, rfl⟩ := DceSecurity.stamp_of_next hu
      exact x.carries_stamp .v2 .rfc4122
    | named => cases hu
  | unixTime g =>
    cases q with
    | fresh =>
      obtain ⟨x, rfl⟩ := UnixTime.stamp_of_next hu
      exact x.carries_stamp .v7 .rfc4122
    | named | dce => cases hu
  | custom g =>
    cases q with
    | fresh =>
      obtain ⟨x, -, rfl⟩ := Custom.stamp_of_next hu
      exact x.carries_stamp .v8 .rfc4122
    | named | dce => cases hu

/-- **All other bits** are the ones that were drawn, hashed or filled in. -/
theorem madeOf_of_answer (hg : g.Ready) (hu : (g.answer q h).1.1 = .ok u) : g.MadeOf q h u := by
  cases g with
  | nameBased g => exact (nameBased_of_answer hg hu).2
  | random =>
    cases q with
    | fresh => cases hu; exact Uuid.payload_stamp ..
    | named | dce => cases hu
  | custom g =>
    cases q with
    | fresh =>
      obtain ⟨x, hx, rfl⟩ := Custom.stamp_of_next hu
      exact ⟨x, hx, x.payload_stamp .v8⟩
    | named | dce => cases hu
  | empty | max | timeBased | dceSecurity | unixTime => trivial

end Generator

end UuidForge
