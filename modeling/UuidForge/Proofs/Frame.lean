import UuidForge.Generator.Basic
import UuidForge.Proofs.State.Domain

/-!
# What a step leaves alone

Most of what generators do on a host touches nothing that outlives it: they draw entropy, read the
clock, and settle the random node id of the state.

* `Host.OnlyRead`: a host from which only inputs were read.
* `TimeSource.onlyRead_read`, `onlyRead_readNode`: **the inputs of generators are only read.**
* `Keeps f act`: the step `act` leaves the part `f` of the host alone; closed under sequencing.
* `Lasting f`: the part `f` is none of those that every generator may touch.
* `lasting_clocks`, `lasting_counter`: the clock domains and the shared counter are lasting.
* `Host.OnlyRead.kept`: **reading keeps whatever is lasting.**
* `Keeps.nextCustom`, `Keeps.nextUnixTime`, `Keeps.stamp`: so do generators of version 8, those of
  version 7 up to the counter, and stamps up to the refresh.
-/

namespace UuidForge

/-! ## Reading inputs -/

/-- The source is the clock of the host. -/
def TimeSource.isSystem : TimeSource → Bool
  | system => true
  | readings .. => false

/-- The node id is the random one of the generator state. -/
def NodeProvider.isNonVolatile : NodeProvider → Bool
  | nonVolatile => true
  | _ => false

namespace Host

/-- **Only inputs were read** from a host: beside the entropy that was drawn, at most its clock was
read and the random node id of its state was made, where that is allowed. -/
structure OnlyRead (readsClock makesNode : Bool) (h h' : Host) : Prop where
  same : ∃ entropy clock randomNode,
    h' = { h with entropy, clock, state := { h.state with randomNode } }
  clock : h'.clock = h.clock ∨ readsClock = true ∧ h'.clock = (Host.now h).2.clock
  node : h'.state.randomNode = h.state.randomNode ∨
    makesNode = true ∧ h.state.randomNode = none

namespace OnlyRead

variable {readsClock makesNode : Bool} {h h' h'' : Host}

theorem of_entropy (h : Host) (entropy : Entropy) :
    OnlyRead readsClock makesNode h { h with entropy } :=
  ⟨⟨_, _, _, rfl⟩, Or.inl rfl, Or.inl rfl⟩

/-- The clock of a host that was only read can be read with no other effect. -/
theorem clock_now (hr : OnlyRead readsClock makesNode h h') :
    (now h').2.clock = (now h).2.clock := by
  obtain ⟨_, _, _, rfl⟩ := hr.same
  rcases hr.clock with hc | ⟨-, hc⟩
  · exact congrArg (fun c : SystemClock => (c.read h.wall h.mono).2) hc
  · have hagain := congrArg (fun c : SystemClock => (c.read h.wall h.mono).2) hc
    exact hagain.trans (congrArg Prod.snd (h.clock.read_again h.wall h.mono))

theorem trans (h₁ : OnlyRead readsClock makesNode h h')
    (h₂ : OnlyRead readsClock makesNode h' h'') : OnlyRead readsClock makesNode h h'' := by
  refine ⟨?_, ?_, ?_⟩
  · obtain ⟨_, _, _, rfl⟩ := h₁.same
    obtain ⟨_, _, _, rfl⟩ := h₂.same
    exact ⟨_, _, _, rfl⟩
  · rcases h₂.clock with hc | ⟨hreads, hc⟩
    · rw [hc]
      exact h₁.clock
    · exact Or.inr ⟨hreads, hc.trans h₁.clock_now⟩
  · rcases h₁.node with hn | hn
    · rcases h₂.node with hn' | ⟨hm, hn'⟩
      · exact Or.inl (hn'.trans hn)
      · exact Or.inr ⟨hm, hn.symm.trans hn'⟩
    · exact Or.inr hn

/-- Where the clock may not be read, it stays. -/
theorem clock_eq (hr : OnlyRead false makesNode h h') : h'.clock = h.clock := by
  rcases hr.clock with hc | ⟨hreads, -⟩
  · exact hc
  · cases hreads

theorem mono (hr : OnlyRead false makesNode h h') : OnlyRead readsClock makesNode h h' :=
  ⟨hr.same, Or.inl hr.clock_eq, hr.node⟩

end OnlyRead

end Host

open Host (OnlyRead)

/-- A source of time that is the clock of the host takes a reading of it, and any other none. -/
theorem TimeSource.read_snd (s : TimeSource) (h : Host) :
    (s.read h).2 = if s.isSystem then (Host.now h).2 else h := by
  cases s with
  | system | readings => rfl

theorem TimeSource.onlyRead_read (s : TimeSource) (makesNode : Bool) (h : Host) :
    OnlyRead s.isSystem makesNode h (s.read h).2 := by
  cases s with
  | system => exact ⟨⟨_, _, _, rfl⟩, Or.inr ⟨rfl, rfl⟩, Or.inl rfl⟩
  | readings f i => exact .of_entropy h h.entropy

/-- The random node id of the state is made only if there is none yet. -/
theorem Host.onlyRead_nonVolatileNode (readsClock : Bool) (h : Host) :
    OnlyRead readsClock true h (Host.nonVolatileNode h).2 := by
  unfold Host.nonVolatileNode GeneratorState.nonVolatileNode
  cases hn : h.state.randomNode with
  | some n => exact .of_entropy h h.entropy
  | none => exact ⟨⟨_, _, _, rfl⟩, Or.inl rfl, Or.inr ⟨rfl, hn⟩⟩

theorem onlyRead_readNode (nodes : Option NodeProvider) (readsClock : Bool) (h : Host) :
    OnlyRead readsClock (nodes.any NodeProvider.isNonVolatile) h (readNode nodes h).2 := by
  cases nodes with
  | none => exact .of_entropy h h.entropy
  | some p =>
    cases p with
    | nonVolatile => exact Host.onlyRead_nonVolatileNode readsClock h
    | hardware | watched | volatile | fixed | supplied => exact .of_entropy h h.entropy

/-! ## Parts of a host -/

/-- A step that leaves a part of the host alone. -/
def Keeps {α β : Type} (f : Host → β) (act : OnHost α) : Prop := ∀ h, f (act h).2 = f h

/-- A part of the host apart from entropy, the clock, the random node id of the state and the
example layout. -/
structure Lasting {β : Type} (f : Host → β) : Prop where
  entropy (h : Host) (entropy : Entropy) : f { h with entropy } = f h
  clock (h : Host) (clock : SystemClock) : f { h with clock } = f h
  randomNode (h : Host) (n : Option NodeId) :
    f { h with state := { h.state with randomNode := n } } = f h
  exampleSequence (h : Host) (n : BitVec 8) : f { h with exampleSequence := n } = f h

/-- The clock domains of the generator state. -/
def Host.clocks (h : Host) : ClockKind → ClockState := h.state.domain

theorem lasting_clocks : Lasting Host.clocks where
  entropy _ _ := rfl
  clock _ _ := rfl
  randomNode _ _ := by
    funext k
    cases k <;> rfl
  exampleSequence _ _ := rfl

theorem lasting_counter : Lasting Host.counter where
  entropy _ _ := rfl
  clock _ _ := rfl
  randomNode _ _ := rfl
  exampleSequence _ _ := rfl

/-- **Reading keeps whatever is lasting.** -/
theorem Host.OnlyRead.kept {β : Type} {f : Host → β} {readsClock makesNode : Bool} {h h' : Host}
    (hf : Lasting f) (hr : OnlyRead readsClock makesNode h h') : f h' = f h := by
  obtain ⟨entropy, clock, randomNode, rfl⟩ := hr.same
  calc f { h with entropy, clock, state := { h.state with randomNode } }
      = f { h with clock, state := { h.state with randomNode } } :=
        hf.entropy { h with clock, state := { h.state with randomNode } } entropy
    _ = f { h with state := { h.state with randomNode } } :=
        hf.clock { h with state := { h.state with randomNode } } clock
    _ = f h := hf.randomNode h randomNode

/-- Reading touches neither clock domain. -/
theorem Host.OnlyRead.domain {readsClock makesNode : Bool} {h h' : Host}
    (hr : OnlyRead readsClock makesNode h h') (k : ClockKind) :
    h'.state.domain k = h.state.domain k :=
  congrFun (hr.kept lasting_clocks) k

namespace Keeps

variable {α β γ : Type} {f : Host → β}

theorem pure (a : α) : Keeps f (pure a) := fun _ => rfl

theorem bind {act : OnHost α} {next : α → OnHost γ} (ha : Keeps f act)
    (hn : ∀ a, Keeps f (next a)) : Keeps f (act >>= next) := fun h =>
  (hn (act h).1 (act h).2).trans (ha h)

theorem look (g : Host → α) : Keeps f (fun h => (g h, h)) := fun _ => rfl

variable (hf : Lasting f)

include hf

theorem drawNode : Keeps f Host.drawNode := fun h => hf.entropy h _

theorem drawUuid : Keeps f Host.drawUuid := fun h => hf.entropy h _

theorem readTime (s : TimeSource) : Keeps f s.read := fun h => (s.onlyRead_read false h).kept hf

theorem readNode (p : Option NodeProvider) : Keeps f (UuidForge.readNode p) := fun h =>
  (onlyRead_readNode p false h).kept hf

theorem fill (c : FillContext) (u : Uuid) (l : Fill) : Keeps f (l.run c u) := by
  cases l with
  | function | recalling | exampleLayout => exact pure _
  | sharedExample => exact fun h => hf.exampleSequence h _

/-- **Generators of version 8 keep whatever is lasting.** -/
theorem nextCustom (g : Custom) : Keeps f g.next :=
  (readTime hf _).bind fun _ => (readNode hf _).bind fun _ => (drawUuid hf).bind fun _ =>
    (fill hf _ _ _).bind fun _ => pure _

/-! ## Generators of version 7 -/

theorem await (hk : ∀ h counter, f { h with counter } = f h) (seed : BitVec 16) (n : Nat)
    (g : UnixTime) : Keeps f (UnixTime.await seed n g) := by
  have hv : ∀ c (d : CounterDomain), Keeps f (d.next c) := by
    intro c d
    cases d with
    | shared => exact fun h => hk h _
    | own k => exact pure _
  induction n generalizing g with
  | zero => exact pure _
  | succ n ih =>
    refine (readTime hf _).bind fun _ => (hv _ _).bind fun a => ?_
    dsimp only
    split
    · exact pure _
    · exact ih _

/-- **Generators of version 7 keep whatever is lasting and not the counter.** -/
theorem nextUnixTime (hk : ∀ h counter, f { h with counter } = f h) (g : UnixTime) :
    Keeps f g.next := by
  refine (drawUuid hf).bind fun _ => (await hf hk _ _ _).bind fun a => ?_
  dsimp only
  split
  · exact pure _
  · exact pure _

/-! ## Stamps -/

/-- **A stamp keeps whatever is lasting and outlives a refresh.** -/
theorem stamp (hr : ∀ k t node, Keeps f (Host.refresh k t node)) (g : TimeBased) :
    Keeps f g.stamp := by
  have hd : ∀ t node (d : ClockDomain), Keeps f (d.refresh t node) := by
    intro t node d
    cases d with
    | shared k => exact (hr k t node).bind fun _ => pure _
    | own c => exact pure _
  refine (readTime hf _).bind fun _ => (readNode hf _).bind fun a => (hd _ _ _).bind fun _ => ?_
  cases a.1 with
  | none => exact (drawNode hf).bind fun _ => pure _
  | some n => exact (pure n).bind fun _ => pure _

theorem nextDce (hr : ∀ k t node, Keeps f (Host.refresh k t node)) (g : DceSecurity)
    (d : LocalDomain) (given : Option (BitVec 32)) : Keeps f (g.next d given) := by
  refine (look id).bind fun h => ?_
  split
  · exact pure _
  · exact (stamp hf hr _).bind fun _ => pure _

end Keeps

end UuidForge
