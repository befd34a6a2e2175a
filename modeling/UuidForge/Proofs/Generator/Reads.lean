import UuidForge.Proofs.Generator.Use

/-!
# What generators of version 1 and 6 read

Before it refreshes a clock domain, a generator of version 1 or 6 reads the time and a node id. That
touches little of the host: the clock, if the generator has no source of its own, and the random
node id of the state, if that is the node id of the generator and does not exist yet. With a clock
of its own a generator touches nothing else, and it stays a generator that reads the same.

* `TimeBased.Alike`: generators that read the same.
* `Generator.Becomes.timeBased`: what a generator has become reads the same.
* `Generator.onlyRead_answer`: **with a clock of its own it only reads**, and a new UUID takes one
  reading of the clock of the host.
* `Generator.answer_of_shared`: **on a shared domain each new UUID takes one refresh.**
-/

namespace UuidForge

open Host (OnlyRead)

namespace Host

/-- The host once a call to a generator has made it look at the clock: the call was for a new UUID,
and the generator has no source of time. -/
def heard (readsClock : Bool) (q : Request) (h : Host) : Host :=
  if readsClock = true ∧ q = .fresh then (now h).2 else h

/-- A call makes a generator look at no more than the clock. -/
theorem onlyRead_heard (readsClock makesNode : Bool) (q : Request) (h : Host) :
    OnlyRead readsClock makesNode h (h.heard readsClock q) := by
  unfold heard
  split
  · rename_i hread
    exact ⟨⟨_, _, _, rfl⟩, Or.inr ⟨hread.1, rfl⟩, Or.inl rfl⟩
  · exact .of_entropy h h.entropy

end Host

theorem TimeSource.isSystem_read (s : TimeSource) (h : Host) :
    (s.read h).1.2.isSystem = s.isSystem := by
  cases s <;> rfl

theorem isNonVolatile_readNode (nodes : Option NodeProvider) (h : Host) :
    (readNode nodes h).1.2.any NodeProvider.isNonVolatile =
      nodes.any NodeProvider.isNonVolatile := by
  cases nodes with
  | none => rfl
  | some p => cases p <;> rfl

namespace TimeBased

/-- **Generators that read the same** and have the same version and kind of clock. -/
structure Alike (g g' : TimeBased) : Prop where
  version : g'.version = g.version
  source : g'.source.isSystem = g.source.isSystem
  nodes : g'.nodes.any NodeProvider.isNonVolatile = g.nodes.any NodeProvider.isNonVolatile
  clock : g'.clock.kind? = g.clock.kind?

theorem Alike.trans {g g' g'' : TimeBased} (h₁ : g.Alike g') (h₂ : g'.Alike g'') :
    g.Alike g'' where
  version := h₂.version.trans h₁.version
  source := h₂.source.trans h₁.source
  nodes := h₂.nodes.trans h₁.nodes
  clock := h₂.clock.trans h₁.clock

variable (g : TimeBased) (h : Host)

theorem alike_stamp : g.Alike (g.stamp h).1.2 := by
  obtain ⟨_, _, -, he⟩ := g.stamp_eq h
  rw [he]
  exact ⟨rfl, g.source.isSystem_read h, isNonVolatile_readNode g.nodes _,
    ClockDomain.kind?_refresh _ _ _ _⟩

/-- With a clock of its own, a generator leaves all alone but the random node id, once the time was
read. -/
theorem onlyRead_stamp (hc : g.clock.kind? = none) :
    OnlyRead false (g.nodes.any NodeProvider.isNonVolatile) (g.source.read h).2 (g.stamp h).2 := by
  have hsame : (g.refreshed h).2 = g.afterReading h := by
    unfold refreshed
    cases hd : g.clock with
    | shared k =>
      rw [hd] at hc
      cases hc
    | own c => rfl
  obtain ⟨_, entropy, -, he⟩ := g.stamp_eq h
  have hread : OnlyRead false (g.nodes.any NodeProvider.isNonVolatile) (g.source.read h).2
      (g.afterReading h) := onlyRead_readNode g.nodes false _
  rw [← hsame] at hread
  rw [he]
  exact hread.trans (.of_entropy _ entropy)

end TimeBased

namespace Generator

variable {g : TimeBased} {g' : Generator} {q : Request} {h : Host}

/-- **Generators of version 1 and 6 refuse all else**, and nothing moves. -/
theorem answer_of_ne_fresh (hq : q ≠ .fresh) (g : TimeBased) (h : Host) :
    ∃ e, (timeBased g).answer q h = ((.error e, timeBased g), h) := by
  cases q with
  | fresh => exact absurd rfl hq
  | named | dce => exact ⟨_, rfl⟩

/-- **What a generator of version 1 or 6 has become** reads the same. -/
theorem Becomes.timeBased (hg : (Generator.timeBased g).Becomes g') :
    ∃ b, g' = .timeBased b ∧ g.Alike b := by
  induction hg with
  | refl => exact ⟨g, rfl, rfl, rfl, rfl, rfl⟩
  | asked q h _ ih =>
    obtain ⟨b, rfl, hb⟩ := ih
    by_cases hq : q = .fresh
    · subst hq
      rw [answer_fresh]
      exact ⟨_, rfl, hb.trans (b.alike_stamp h)⟩
    · obtain ⟨e, he⟩ := answer_of_ne_fresh hq b h
      rw [he]
      exact ⟨b, rfl, hb⟩
  | disposed _ ih =>
    obtain ⟨b, rfl, hb⟩ := ih
    exact ⟨b, rfl, hb⟩

/-- **With a clock of its own, a generator only reads.** A new UUID takes one reading of the clock
of the host, unless the generator has a source of time. -/
theorem onlyRead_answer (hc : g.clock.kind? = none) (q : Request) (h : Host) :
    OnlyRead false (g.nodes.any NodeProvider.isNonVolatile) (h.heard g.source.isSystem q)
      ((timeBased g).answer q h).2 := by
  unfold Host.heard
  by_cases hq : q = .fresh
  · subst hq
    have hread := g.onlyRead_stamp h hc
    rw [g.source.read_snd h] at hread
    rw [answer_fresh]
    simpa using hread
  · obtain ⟨e, he⟩ := answer_of_ne_fresh hq g h
    rw [he, if_neg fun ⟨_, hfresh⟩ => hq hfresh]
    exact .of_entropy h h.entropy

/-- **A new UUID from a shared domain** takes one refresh of that domain, after the inputs were
read; then at most a node id is drawn. -/
theorem answer_of_shared {k : ClockKind} (hc : g.clock.kind? = some k) (h : Host) :
    ∃ t node? node h₁ entropy,
      OnlyRead g.source.isSystem (g.nodes.any NodeProvider.isNonVolatile) h h₁ ∧
      ((timeBased g).answer .fresh h).1.1 =
        TimeStamp.uuid g.version ⟨t, (Host.refresh k t node? h₁).1, node⟩ ∧
      ((timeBased g).answer .fresh h).2 = { (Host.refresh k t node? h₁).2 with entropy } := by
  have hd : g.clock = .shared k := by
    cases hd : g.clock with
    | shared l =>
      rw [hd] at hc
      exact congrArg _ (Option.some.inj hc)
    | own c =>
      rw [hd] at hc
      cases hc
  obtain ⟨node, entropy, -, he⟩ := g.stamp_eq h
  have hr : g.refreshed h =
      (((Host.refresh k (g.reading h).1 (g.reading h).2 (g.afterReading h)).1, .shared k),
        (Host.refresh k (g.reading h).1 (g.reading h).2 (g.afterReading h)).2) := by
    rw [TimeBased.refreshed, hd]
    rfl
  rw [answer_fresh, he, hr]
  exact ⟨_, _, node, _, entropy, g.onlyRead_afterReading h, rfl, rfl⟩

end Generator

end UuidForge
