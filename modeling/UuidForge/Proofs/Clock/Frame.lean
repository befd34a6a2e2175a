import UuidForge.Proofs.Clock.Trail
import UuidForge.Proofs.Frame

/-!
# Stamps and clocks

A generator of version 1, 2 or 6 refreshes the clock domain that it is bound to, once for each
stamp, and touches no other.

* `TimeBased.onlyRead_afterReading`: the inputs of a generator are only read.
* `TimeBased.stamp_eq`: what a stamp is made of.
* `TimeBased.hands_stamp`: **a stamp is handed out by one refresh of the generator's domain.**
* `TimeBased.domain_stamp`: a stamp leaves every domain that is not the generator's alone.
-/

namespace UuidForge

namespace ClockDomain

/-- The clock state behind a clock domain. -/
def state (h : Host) : ClockDomain → ClockState
  | shared k => h.state.domain k
  | own c => c

/-- The domain of the generator state, unless the clock is the generator's own. -/
def kind? : ClockDomain → Option ClockKind
  | shared k => some k
  | own _ => none

variable (d : ClockDomain) (t : Ticks) (node : Option NodeId) (h : Host)

theorem kind?_refresh : (d.refresh t node h).1.2.kind? = d.kind? := by
  cases d <;> rfl

theorem hands_refresh :
    (d.state h).Hands (t, (d.refresh t node h).1.1)
      ((d.refresh t node h).1.2.state (d.refresh t node h).2) := by
  refine ⟨node, ?_⟩
  cases d with
  | shared k =>
    exact ⟨(GeneratorState.refresh_fst h.state t node h.mono h.files).symm,
      (GeneratorState.domain_refresh_self h.state t node h.mono h.files).symm⟩
  | own c => exact ⟨rfl, rfl⟩

theorem domain_refresh {k : ClockKind} (hk : d.kind? ≠ some k) :
    (d.refresh t node h).2.state.domain k = h.state.domain k := by
  cases d with
  | shared l =>
    exact GeneratorState.domain_refresh_of_ne h.state t node h.mono h.files
      fun e => hk (congrArg some e.symm)
  | own c => rfl

end ClockDomain

namespace TimeBased

variable (g : TimeBased) (h : Host)

/-- The host after a generator has read its clock and its node id. -/
def afterReading : Host := (readNode g.nodes (g.source.read h).2).2

/-- What a generator reads: the time, and a node id if it has one. -/
def reading : Ticks × Option NodeId :=
  ((g.source.read h).1.1, (readNode g.nodes (g.source.read h).2).1.1)

/-- **The inputs of a generator are only read.** -/
theorem onlyRead_afterReading :
    Host.OnlyRead g.source.isSystem (g.nodes.any NodeProvider.isNonVolatile) h (g.afterReading h) :=
  (g.source.onlyRead_read _ h).trans (onlyRead_readNode g.nodes _ _)

theorem domain_afterReading (k : ClockKind) :
    (g.afterReading h).state.domain k = h.state.domain k :=
  (g.onlyRead_afterReading h).domain k

theorem state_afterReading (d : ClockDomain) : d.state (g.afterReading h) = d.state h := by
  cases d with
  | shared k => exact domain_afterReading g h k
  | own c => rfl

/-- The refresh of the clock domain with what the generator reads. -/
def refreshed : (ClockSequence × ClockDomain) × Host :=
  g.clock.refresh (g.reading h).1 (g.reading h).2 (g.afterReading h)

/-- **A stamp is one refresh of the clock domain** with what the generator reads; after it only a
node id may be drawn, for a generator that has none. -/
theorem stamp_eq : ∃ node entropy, (∀ n, (g.reading h).2 = some n → node = n) ∧
    g.stamp h =
      (({ time := (g.reading h).1, sequence := (g.refreshed h).1.1, node },
        { g with
          source := (g.source.read h).1.2
          nodes := (readNode g.nodes (g.source.read h).2).1.2
          clock := (g.refreshed h).1.2 }), { (g.refreshed h).2 with entropy }) := by
  unfold refreshed reading afterReading stamp
  simp only [bind, StateT.bind]
  obtain ⟨⟨t, source⟩, h₁⟩ := g.source.read h
  dsimp only
  obtain ⟨⟨node?, nodes⟩, h₂⟩ := readNode g.nodes h₁
  dsimp only
  cases node? with
  | none => exact ⟨_, _, nofun, rfl⟩
  | some n => exact ⟨n, _, fun _ he => Option.some.inj he, rfl⟩

theorem kind?_stamp : (g.stamp h).1.2.clock.kind? = g.clock.kind? := by
  obtain ⟨_, _, -, he⟩ := g.stamp_eq h
  rw [he]
  exact ClockDomain.kind?_refresh _ _ _ _

/-- **What a generator hands out comes from a refresh of its clock domain.** -/
theorem hands_stamp :
    (g.clock.state h).Hands ((g.stamp h).1.1.time, (g.stamp h).1.1.sequence)
      ((g.stamp h).1.2.clock.state (g.stamp h).2) := by
  obtain ⟨_, entropy, -, he⟩ := g.stamp_eq h
  have hst : (g.refreshed h).1.2.state { (g.refreshed h).2 with entropy } =
      (g.refreshed h).1.2.state (g.refreshed h).2 := by
    cases (g.refreshed h).1.2 <;> rfl
  rw [he, ← g.state_afterReading h g.clock]
  dsimp only
  rw [hst]
  exact ClockDomain.hands_refresh _ _ _ _

/-- A stamp leaves every domain alone that the generator is not bound to. -/
theorem domain_stamp {k : ClockKind} (hk : g.clock.kind? ≠ some k) :
    (g.stamp h).2.state.domain k = h.state.domain k := by
  obtain ⟨_, _, -, he⟩ := g.stamp_eq h
  rw [he]
  exact (ClockDomain.domain_refresh _ _ _ _ hk).trans (domain_afterReading g h k)

end TimeBased

end UuidForge
