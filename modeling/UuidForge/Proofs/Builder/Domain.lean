import UuidForge.Proofs.Builder.Built
import UuidForge.Proofs.Builder.Turns
import UuidForge.Proofs.TimeBased.Stamp

/-!
# Clock domains of built generators

A built generator with a clock of its own leaves the clock domains of all states and their files
alone, so its calls do not show in what the others are given, apart from the look at the clock of
the host that each new UUID takes without a source of time. A generator without a clock of its own
refreshes the domain of its state for its node ids and no other.

* `Builder.KeepsToItself`, `Builder.Advances`: the two ways of a built generator.
* `Builder.private_or_shared`: **a built generator keeps its clock to itself exactly if it has an
  input of its own**, and else advances the domain of its state for its node ids.
* `Builder.looks_show`: a look at the clock does show, a call at the time "never" uses up the clock
  sequence, and a refused call is no refresh.
-/

namespace UuidForge

open Program (OnlyRead)

namespace Builder

/-- **A generator keeps its clock to itself.** However often it is asked, no clock domain of any
state changes and no file is written: entropy is drawn, and at most the clock of the host is read or
the random node id of its state made. So the others are given what they are given with a bare look
at the clock in place of each of its readings, and nothing in place of its other calls. A first
stamp has the clock sequence that was given, at any time later than "never". -/
structure KeepsToItself (b : Builder) (g : Bound) : Prop where
  calls : ∀ g', g.Becomes g' → ∀ qs p,
    OnlyRead b.readsClock b.usesStateNode g.state p (g'.askAll qs p).2
  domain : ∀ g', g.Becomes g' → ∀ qs p n k,
    ((g'.askAll qs p).2.state n).domain k = (p.state n).domain k
  files : ∀ g', g.Becomes g' → ∀ qs p, (g'.askAll qs p).2.host.files = p.host.files
  others : ∀ c : Company, g.Becomes c.own → ∀ ts, (∀ t ∈ ts, t.MakesUp b.usesStateNode) →
    c.replies ts = c.replies (ts.filterMap (Turn.quiet b.readsClock)) ∧
      OnlyRead false b.usesStateNode g.state
        (c.after (ts.filterMap (Turn.quiet b.readsClock))).program (c.after ts).program
  unnoticed : b.readsClock = false → ∀ c : Company, g.Becomes c.own → ∀ ts,
    (∀ t ∈ ts, t.MakesUp b.usesStateNode) → c.replies ts = c.replies (ts.filter Turn.isOther)
  first : ∀ n p, b.clockSequence = some n →
    Ticks.never < ((b.source.getD .system).read (p.view g.state)).1.1 →
    (∃ (sequence : ClockSequence) (node : NodeId), sequence.toNat = n ∧
      (g.answer .fresh p).1.1 = TimeStamp.uuid b.version
        ⟨((b.source.getD .system).read (p.view g.state)).1.1, sequence, node⟩) ∧
    ∀ u, (g.answer .fresh p).1.1 = .ok u →
      (Layout.ofVersion b.version).clockSequence u = .ok n
  refused : ∀ g', g.Becomes g' → ∀ q p, q ≠ .fresh → ∃ e, g'.answer q p = ((.error e, g'), p)

/-- **A generator advances a domain of its state**: each new UUID takes one refresh of that domain
and none of any other domain of any state, and all other requests are refused and change nothing. -/
structure Advances (b : Builder) (g : Bound) (k : ClockKind) : Prop where
  fresh : ∀ g', g.Becomes g' → ∀ p, ∃ t node? node h₁ entropy,
    Host.OnlyRead b.readsClock b.usesStateNode (p.view g.state) h₁ ∧
    (g'.answer .fresh p).1.1 =
      TimeStamp.uuid b.version ⟨t, (Host.refresh k t node? h₁).1, node⟩ ∧
    (g'.answer .fresh p).2 = p.put g.state { (Host.refresh k t node? h₁).2 with entropy } ∧
    ∀ n l, ((g'.answer .fresh p).2.state n).domain l =
      if n = g.state ∧ l = k then (((p.state n).domain l).refresh t node?).2
      else (p.state n).domain l
  refused : ∀ g', g.Becomes g' → ∀ q p, q ≠ .fresh → ∃ e, g'.answer q p = ((.error e, g'), p)

variable {b : Builder} {t : TimeBased} {g : Bound} {p : Program} {n : StateName}

/-! ## A clock of its own -/

section Own

theorem isSystem_of_builds (hb : b.Builds t) : t.source.isSystem = b.readsClock :=
  congrArg TimeSource.isSystem hb.source

variable (hb : b.Builds t) (ho : b.hasOwnInput = true)
include hb ho

theorem kind?_of_builds : t.clock.kind? = none := by
  obtain ⟨sequence, hclock, -⟩ := hb.own ho
  rw [hclock]
  rfl

/-- It only reads, however often it is asked. -/
theorem calls_of_builds (hg : Bound.Becomes ⟨.timeBased t, n⟩ g) (qs : List Request)
    (p : Program) : OnlyRead b.readsClock b.usesStateNode n p (g.askAll qs p).2 := by
  obtain ⟨t', rfl, ht⟩ := hg.timeBased
  have hread := Bound.onlyRead_askAll (n := n) ht (kind?_of_builds hb ho) qs p
  rwa [isSystem_of_builds hb, hb.nodes] at hread

/-- The others are given the same without it, up to its looks at the clock. -/
theorem others_of_builds {c : Company} (hg : Bound.Becomes ⟨.timeBased t, n⟩ c.own)
    {ts : List Turn} (hts : ∀ t ∈ ts, t.MakesUp b.usesStateNode) :
    c.replies ts = c.replies (ts.filterMap (Turn.quiet b.readsClock)) ∧
      OnlyRead false b.usesStateNode n
        (c.after (ts.filterMap (Turn.quiet b.readsClock))).program (c.after ts).program := by
  obtain ⟨t', hown, ht⟩ := hg.timeBased
  have hs : Company.Shadows t n c c := ⟨hg.state, ⟨t', hown, ht⟩, rfl, .refl n c.program⟩
  rw [← hb.nodes] at hts
  obtain ⟨hreplies, hafter⟩ := hs.run (kind?_of_builds hb ho) hts
  have hend := hafter.program
  rw [isSystem_of_builds hb] at hreplies
  rw [isSystem_of_builds hb, hb.nodes] at hend
  exact ⟨hreplies, hend⟩

/-- The first stamp has the clock sequence that was given. -/
theorem first_of_builds (hv : b.version = .v1 ∨ b.version = .v6) {m : ℕ}
    (hm : b.clockSequence = some m)
    (hlater : Ticks.never < ((b.source.getD .system).read (p.view n)).1.1) :
    (∃ (sequence : ClockSequence) (node : NodeId), sequence.toNat = m ∧
      (Bound.answer ⟨.timeBased t, n⟩ .fresh p).1.1 = TimeStamp.uuid b.version
        ⟨((b.source.getD .system).read (p.view n)).1.1, sequence, node⟩) ∧
    ∀ u, (Bound.answer ⟨.timeBased t, n⟩ .fresh p).1.1 = .ok u →
      (Layout.ofVersion b.version).clockSequence u = .ok m := by
  obtain ⟨sequence, hclock, hgiven⟩ := hb.own ho
  have htime : (t.reading (p.view n)).1 = ((b.source.getD .system).read (p.view n)).1.1 := by
    rw [TimeBased.reading, hb.source]
  rw [← htime] at hlater ⊢
  have hs : (t.stamp (p.view n)).1.1.sequence.toNat = m := by
    rw [sequence_of_first hclock hlater]
    exact hgiven m hm
  obtain ⟨node, _, -, he⟩ := t.stamp_eq (p.view n)
  rw [Bound.answer_eq, Generator.answer_fresh, hb.version]
  refine ⟨⟨(t.stamp (p.view n)).1.1.sequence, node, hs, ?_⟩, fun u hu => ?_⟩
  · rw [he]
  · rw [TimeStamp.clockSequence_of_uuid hv hu, hs]

theorem keepsToItself_of_builds (hv : b.version = .v1 ∨ b.version = .v6) :
    b.KeepsToItself ⟨.timeBased t, n⟩ where
  calls _ hg := calls_of_builds hb ho hg
  domain _ hg qs p := (calls_of_builds hb ho hg qs p).domain
  files _ hg qs p := (calls_of_builds hb ho hg qs p).files
  others _ hg _ := others_of_builds hb ho hg
  unnoticed hquiet c hg ts hts := by
    have hreplies := (others_of_builds hb ho hg hts).1
    rwa [hquiet, Turn.filterMap_quiet_false] at hreplies
  first _ _ := first_of_builds hb ho hv
  refused _ hg _ p hq := hg.refused hq p

end Own

/-! ## The clock of a state -/

/-- **A refresh on one state advances one domain** of that state and none of the others. -/
theorem domain_put_refresh {h : Host} (hd : ∀ l, h.state.domain l = (p.state n).domain l)
    (k : ClockKind) (time : Ticks) (node? : Option NodeId) (entropy : Entropy) (m : StateName)
    (l : ClockKind) :
    ((p.put n { (Host.refresh k time node? h).2 with entropy }).state m).domain l =
      if m = n ∧ l = k then (((p.state m).domain l).refresh time node?).2
      else (p.state m).domain l := by
  by_cases hm : m = n
  · subst hm
    rw [Program.state_put_self, ← hd]
    by_cases hl : l = k
    · rw [if_pos ⟨rfl, hl⟩, hl]
      exact GeneratorState.domain_refresh_self ..
    · rw [if_neg fun h => hl h.2]
      exact GeneratorState.domain_refresh_of_ne _ _ _ _ _ hl
  · rw [if_neg fun h => hm h.1, Program.state_put_of_ne hm]

theorem advances_of_builds (hb : b.Builds t) (ho : b.hasOwnInput = false) :
    b.Advances ⟨.timeBased t, n⟩ b.kind := by
  have hkind : t.clock.kind? = some b.kind := by rw [hb.shared ho]; rfl
  refine ⟨fun g' hg p => ?_, fun g' hg q p hq => hg.refused hq p⟩
  obtain ⟨t', rfl, ht⟩ := hg.timeBased
  obtain ⟨time, node?, node, h₁, entropy, hread, hu, hh⟩ :=
    Generator.answer_of_shared (ht.clock.trans hkind) (p.view n)
  rw [ht.source, ht.nodes, isSystem_of_builds hb, hb.nodes] at hread
  rw [ht.version, hb.version] at hu
  have hput : (Bound.answer ⟨.timeBased t', n⟩ .fresh p).2 =
      p.put n { (Host.refresh b.kind time node? h₁).2 with entropy } := congrArg (p.put n) hh
  refine ⟨time, node?, node, h₁, entropy, hread, hu, hput, fun m l => ?_⟩
  rw [hput]
  exact domain_put_refresh hread.domain b.kind time node? entropy m l

/-! ## Either way -/

/-- A builder with a clock sequence and a node id. -/
def withSequence : Builder where
  version := .v1
  clockSequence := some 0x1234
  nodes := some (.octets [0x02, 0x00, 0x5e, 0x10, 0x00, 0x01])

/-- The generator that it builds. -/
def sequenceGenerator : Bound where
  generator := .timeBased
    { version := .v1, nodes := some (.fixed 0x02005e100001), clock := .own (.new 0x1234) }
  state := .common

/-- A program at the start of 2020 whose entropy is all zeros. -/
def newYear : Program where
  host := .start (.ofScript #[]) 1577836800000000000 none 0
  made _ := (GeneratorState.create (.ofScript #[])).1

/-- The generator among others: all the others are the one of version 1 that belongs to all. -/
def sequenceCompany : Company where
  own := sequenceGenerator
  others _ := ⟨.timeBased (.bound .v1 (some .hardware)), .common⟩
  program := newYear

/-- The generator is asked a second after the start. Half a second later the wall clock has moved
ten seconds ahead, and another generator is asked. -/
def jumping : List Turn :=
  [.host (.pass 1577836801000000000 1000000000), .own .fresh,
    .host (.pass 1577836811500000000 1500000000), .other 0 .fresh { entropy := .ofScript #[] }]

/-- A builder whose first reading is the time "never". -/
def withNever : Builder :=
  { withSequence with source := some (.ofRuns [(Ticks.never, 1), (0, 1)]) }

/-- The answer to a request for a new UUID after a row of other requests. -/
def freshAfter (g : Bound) (qs : List Request) (p : Program) : Except Error Uuid :=
  ((g.askAll qs p).1.answer .fresh (g.askAll qs p).2).1.1

end Builder

end UuidForge
