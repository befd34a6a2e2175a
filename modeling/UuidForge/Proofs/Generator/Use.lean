import UuidForge.Proofs.Clock.Frame
import UuidForge.Proofs.Hash.History

/-!
# Generators in use

A generator is asked and disposed of in any order, each time on a host in any state, and is another
generator afterwards. Whatever it has become, it declares what it declared before, and a generator
of names has no idle hasher that remembers a message.

* `Generator.Becomes`: what a generator can become.
* `Generator.InUse`: what a new generator can become.
* `Generator.version_answer`, `Generator.variant_answer`: **version and variant stay.**
* `Generator.InUse.ready`: **idle hashers have forgotten what they hashed.**
-/

namespace UuidForge

/-- The namespace and the name that a request is about. A generator of names takes the empty name in
the Nil namespace when no name is given. -/
def Request.name? : Request → Option (Uuid × Octets)
  | .fresh => some (Uuid.nil, [])
  | .named space name => some (space, name)
  | .dce .. => none

theorem TimeBased.version_stamp (g : TimeBased) (h : Host) :
    (g.stamp h).1.2.version = g.version := by
  obtain ⟨_, _, -, he⟩ := g.stamp_eq h
  rw [he]

namespace Generator

variable {g : Generator}

/-- **What a generator can become**: it is asked on any host, and disposed of. -/
inductive Becomes (g : Generator) : Generator → Prop
  | refl : Becomes g g
  | asked {g' : Generator} (q : Request) (h : Host) :
      Becomes g g' → Becomes g (g'.answer q h).1.2
  | disposed {g' : Generator} : Becomes g g' → Becomes g g'.dispose

/-- A generator of names has no idle hashers before it is asked; the others may start anywhere. -/
def IsNew : Generator → Prop
  | nameBased g => g.pool.idle = []
  | _ => True

/-- **A generator in use** is what a new one has become. -/
def InUse (g : Generator) : Prop := ∃ g₀ : Generator, g₀.IsNew ∧ g₀.Becomes g

theorem InUse.of_isNew (hg : g.IsNew) : g.InUse := ⟨g, hg, .refl⟩

theorem InUse.answer (hg : g.InUse) (q : Request) (h : Host) : (g.answer q h).1.2.InUse := by
  obtain ⟨g₀, hnew, hb⟩ := hg
  exact ⟨g₀, hnew, hb.asked q h⟩

/-! ## What a generator declares -/

theorem version_answer (g : Generator) (q : Request) (h : Host) :
    (g.answer q h).1.2.version = g.version := by
  cases q with
  | fresh =>
    cases g with
    | timeBased g => exact g.version_stamp h
    | empty | max | random | dceSecurity | unixTime | nameBased | custom => rfl
  | named space name => cases g <;> rfl
  | dce d localId => cases g <;> rfl

theorem variant_answer (g : Generator) (q : Request) (h : Host) :
    (g.answer q h).1.2.variant = g.variant := by
  cases q with
  | fresh | named | dce => cases g <;> rfl

/-- A new UUID of version 1 or 6 is that of the stamp taken. -/
theorem answer_fresh (g : TimeBased) (h : Host) :
    (timeBased g).answer .fresh h =
      (((g.stamp h).1.1.uuid g.version, timeBased (g.stamp h).1.2), (g.stamp h).2) := by
  rw [← g.version_stamp h]
  rfl

/-! ## Idle hashers -/

/-- Every idle hasher of a generator of names has forgotten its message. -/
def Ready : Generator → Prop
  | nameBased g => g.pool.Ready
  | _ => True

/-- A generator of names looks at no host. -/
theorem answer_nameBased (g : NameBased) (q : Request) (h : Host) :
    (nameBased g).answer q h =
      match q.name? with
      | some (space, name) => (((g.ofName space name).1, nameBased (g.ofName space name).2), h)
      | none => ((.error (.notSupported .dceSecurity), nameBased g), h) := by
  cases q <;> rfl

theorem ready_answer (hg : g.Ready) (q : Request) (h : Host) : (g.answer q h).1.2.Ready := by
  cases g with
  | nameBased g =>
    have hserves : g.pool.Serves g.pool.function g.pool.disposed := ⟨hg, rfl, rfl⟩
    rw [answer_nameBased]
    cases q.name? with
    | some p => exact (HasherPool.serves_digest hserves).ready
    | none => exact hg
  | empty | max | random | timeBased | dceSecurity | unixTime | custom => cases q <;> trivial

theorem ready_dispose (hg : g.Ready) : g.dispose.Ready := by
  cases g with
  | nameBased g =>
    show g.dispose.pool.Ready
    unfold NameBased.dispose
    split
    · exact hg
    · intro x hx
      cases hx
  | empty | max | random | timeBased | dceSecurity | unixTime | custom => trivial

/-- **The idle hashers of a generator in use have forgotten what they hashed.** -/
theorem InUse.ready (hg : g.InUse) : g.Ready := by
  obtain ⟨g₀, hnew, hb⟩ := hg
  induction hb with
  | refl =>
    cases g₀ with
    | nameBased g =>
      have hidle : g.pool.idle = [] := hnew
      intro x hx
      rw [hidle] at hx
      cases hx
    | empty | max | random | timeBased | dceSecurity | unixTime | custom => trivial
  | asked q h _ ih => exact ready_answer ih q h
  | disposed _ ih => exact ready_dispose ih

end Generator

end UuidForge
