import UuidForge.Generator.Builder
import UuidForge.Proofs.Generator.Reads

/-!
# What generators are built of

A built generator of version 1 or 6 that was given a source of time, a clock sequence or node ids of
its own has a clock of its own, which starts at the clock sequence that was given. Any other
advances the domain of its generator state that belongs to its node ids.

* `Builder.Builds`: what a generator is built of.
* `Builder.builds_of_build`: **what every generator is built of that gets built.**
* `Builder.bound_of_buildBound`: it is bound to the state that was given.
* `Builder.sequence_of_first`: **a first stamp has the clock sequence that was given.**
-/

namespace UuidForge

namespace Builder

/-- Node ids were given, not just chosen. -/
def hasOwnNodes (b : Builder) : Bool :=
  match b.nodes with
  | some (.provider _) | some (.octets _) => true
  | _ => false

/-- A source of time, a clock sequence or node ids were given. -/
def hasOwnInput (b : Builder) : Bool :=
  b.hasOwnNodes || b.source.isSome || b.clockSequence.isSome

/-- The clock domain for the node ids chosen: hardware addresses have one, all others and none at
all the other. Without a choice the node id is the hardware address. -/
def kind (b : Builder) : ClockKind :=
  match b.nodes with
  | none | some (.source .physical) => .physical
  | _ => .random

/-- The node id is the random one of the generator state. -/
def usesStateNode (b : Builder) : Bool :=
  match b.nodes with
  | some (.source .nonVolatile) | some (.provider .nonVolatile) => true
  | _ => false

/-- The time is that of the clock of the host. -/
def readsClock (b : Builder) : Bool := (b.source.getD .system).isSystem

/-- **What a generator is built of.** -/
structure Builds (b : Builder) (g : TimeBased) : Prop where
  version : g.version = b.version
  source : g.source = b.source.getD .system
  nodes : g.nodes.any NodeProvider.isNonVolatile = b.usesStateNode
  own : b.hasOwnInput = true → ∃ sequence : ClockSequence, g.clock = .own (.new sequence) ∧
    ∀ n, b.clockSequence = some n → sequence.toNat = n
  shared : b.hasOwnInput = false → g.clock = .shared b.kind

variable {b : Builder} {g : Generator} {h : Host}

theorem provider_spec {nodes : Option NodeProvider} {own : Bool}
    (hp : (b.provider h).1 = .ok (nodes, own)) :
    own = b.hasOwnNodes ∧ nodes.any NodeProvider.isNonVolatile = b.usesStateNode ∧
      (own = false → kindOf nodes = b.kind) := by
  unfold provider at hp
  unfold hasOwnNodes usesStateNode kind
  cases hn : b.nodes with
  | none =>
    rw [hn] at hp
    cases hp
    exact ⟨rfl, rfl, fun _ => rfl⟩
  | some setting =>
    rw [hn] at hp
    cases setting with
    | source s =>
      cases s with
      | none | physical | volatile | nonVolatile =>
        cases hp
        exact ⟨rfl, rfl, fun _ => rfl⟩
    | provider p =>
      cases hp
      cases p with
      | nonVolatile | hardware | watched | volatile | fixed | supplied => exact ⟨rfl, rfl, nofun⟩
    | octets xs =>
      dsimp only at hp
      split at hp
      · cases hp
        exact ⟨rfl, rfl, nofun⟩
      · cases hp

/-- **The clock**: one of its own if any input is one's own. -/
theorem clock_spec (b : Builder) (nodes : Option NodeProvider) (h : Host) :
    (b.hasOwnInput = true → ∃ sequence : ClockSequence,
      (b.clock nodes b.hasOwnNodes h).1 = .own (.new sequence) ∧
        ∀ n, b.clockSequence = some n → sequence = BitVec.ofNat 14 n) ∧
    (b.hasOwnInput = false → (b.clock nodes b.hasOwnNodes h).1 = .shared (kindOf nodes)) := by
  unfold clock hasOwnInput
  split
  · rename_i ho
    refine ⟨fun _ => ?_, fun hno => ?_⟩
    · cases hs : b.clockSequence with
      | some n => exact ⟨_, rfl, fun m hm => by rw [Option.some.inj hm]⟩
      | none => exact ⟨_, rfl, nofun⟩
    · rw [ho] at hno
      cases hno
  · rename_i hno
    exact ⟨fun ho => absurd ho hno, fun _ => rfl⟩

theorem make?_eq_ok {version : Version} {source : TimeSource} {nodes : Option NodeProvider}
    {clock : ClockDomain} {t : TimeBased}
    (ht : TimeBased.make? version source nodes clock = .ok t) :
    t = { version, source, nodes, clock } := by
  unfold TimeBased.make? at ht
  split at ht
  · split at ht
    · cases ht
    · exact (Except.ok.inj ht).symm
  · split at ht
    · exact (Except.ok.inj ht).symm
    · cases ht

/-- **What every generator of version 1 or 6 is built of** that gets built. -/
theorem builds_of_build (hv : b.version = .v1 ∨ b.version = .v6) (hb : (b.build h).1 = .ok g) :
    ∃ t, g = .timeBased t ∧ b.Builds t := by
  have h7 : b.version ≠ .v7 := by
    rcases hv with hv | hv
    · rw [hv]
      decide
    · rw [hv]
      decide
  have hfits : (b.clockSequence.any fun n => decide (0x4000 ≤ n)) ≠ true := by
    intro hlarge
    unfold build at hb
    rw [if_pos hlarge] at hb
    cases hb
  unfold build at hb
  rw [if_neg hfits, if_neg h7] at hb
  unfold buildTimeBased at hb
  simp only [bind, StateT.bind] at hb
  obtain ⟨⟨r, h₁⟩, hr⟩ : ∃ r, b.provider h = r := ⟨_, rfl⟩
  rw [hr] at hb
  cases r with
  | error e => cases hb
  | ok r =>
    obtain ⟨nodes, own⟩ := r
    obtain ⟨rfl, hnodes, hkind⟩ := provider_spec (congrArg Prod.fst hr)
    obtain ⟨hown, hshared⟩ := b.clock_spec nodes h₁
    have hb : (TimeBased.make? b.version (b.source.getD .system) nodes
        (b.clock nodes b.hasOwnNodes h₁).1).map .timeBased = .ok g := hb
    cases ht : TimeBased.make? b.version (b.source.getD .system) nodes
        (b.clock nodes b.hasOwnNodes h₁).1 with
    | error e =>
      rw [ht] at hb
      cases hb
    | ok t =>
      rw [ht] at hb
      obtain rfl := make?_eq_ok ht
      refine ⟨_, (Except.ok.inj hb).symm, rfl, rfl, hnodes, fun ho => ?_, fun hno => ?_⟩
      · obtain ⟨sequence, hclock, hgiven⟩ := hown ho
        refine ⟨sequence, hclock, fun n hn => ?_⟩
        have hlt : n < 0x4000 := by simpa [hn] using hfits
        rw [hgiven n hn, BitVec.toNat_ofNat]
        exact Nat.mod_eq_of_lt hlt
      · have hnot : b.hasOwnNodes = false := by
          unfold hasOwnInput at hno
          exact (Bool.or_eq_false_iff.1 (Bool.or_eq_false_iff.1 hno).1).1
        rw [← hkind hnot]
        exact hshared hno

/-- What gets built is bound to the state that was given, else to the one that belongs to all. -/
theorem bound_of_buildBound {p : Program} {g : Bound} (hb : (b.buildBound p).1 = .ok g) :
    ∃ generator, (b.build (p.view b.stateName)).1 = .ok generator ∧
      g = ⟨generator, b.stateName⟩ := by
  have hb : (b.build (p.view b.stateName)).1.map (fun generator => Bound.mk generator b.stateName) =
      .ok g := hb
  obtain ⟨generator, hr, rfl⟩ := map_eq_ok_iff.1 hb
  exact ⟨generator, hr, rfl⟩

/-! ## The first stamp -/

/-- **A first stamp has the clock sequence that was given**, at any time later than "never". -/
theorem sequence_of_first {t : TimeBased} {sequence : ClockSequence}
    (hc : t.clock = .own (.new sequence)) (hlater : Ticks.never < (t.reading h).1) :
    (t.stamp h).1.1.sequence = sequence := by
  have hdue : (ClockState.new sequence).incrementDue (t.reading h).1 (t.reading h).2 = false := by
    have hnode : (ClockState.new sequence).nodeChanged (t.reading h).2 = false := by
      cases (t.reading h).2 <;> rfl
    have htime : ¬ (t.reading h).1 ≤ Ticks.never := Int64.not_le.2 hlater
    rw [ClockState.incrementDue, hnode, Bool.or_false]
    exact decide_eq_false htime
  obtain ⟨_, _, -, he⟩ := t.stamp_eq h
  have hs : (t.stamp h).1.1.sequence =
      ((ClockState.new sequence).refresh (t.reading h).1 (t.reading h).2).1.sequence := by
    rw [he, TimeBased.refreshed, hc]
    rfl
  rw [hs, ClockState.sequence_refresh, hdue]
  rfl

end Builder

end UuidForge
