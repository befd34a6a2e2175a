import UuidForge.Program
import UuidForge.Proofs.Generator.Reads

/-!
# What a step on one state leaves alone

A step on one generator state of a program sees that state and the host, and none of the other
states.

* `Program.view_put`, `Program.state_put_of_ne`: what is put under one name is found there, and all
  other states are as before.
* `Program.ext_view`: programs with the same view of one state and the same other states are the
  same.
* `Program.OnlyRead`: a program from which only inputs were read, through one of its states.
* `Bound.onlyRead_answer`: **a generator with a clock of its own only reads**, and a new UUID takes
  one reading of the clock of the host.
* `Bound.onlyRead_askAll`: so it does however often it is asked.
-/

namespace UuidForge

namespace Program

variable {p p' p'' : Program} {n m : StateName} {h : Host}

@[simp] theorem view_put (p : Program) (n : StateName) (h : Host) : (p.put n h).view n = h := by
  cases n with
  | common => rfl
  | made i => simp [put, view, state]

theorem state_put_self (p : Program) (n : StateName) (h : Host) :
    (p.put n h).state n = h.state :=
  congrArg Host.state (view_put p n h)

theorem state_put_of_ne (hm : m ≠ n) : (p.put n h).state m = p.state m := by
  cases n with
  | common =>
    cases m with
    | common => exact absurd rfl hm
    | made j => rfl
  | made i =>
    cases m with
    | common => rfl
    | made j => exact if_neg fun hj => hm (congrArg StateName.made hj)

/-- **Programs with the same view of one state and the same other states are the same.** -/
theorem ext_view (hv : p.view n = p'.view n) (hs : ∀ m, m ≠ n → p.state m = p'.state m) :
    p = p' := by
  have hn : p.state n = p'.state n := congrArg Host.state hv
  have hstate : ∀ m, p.state m = p'.state m := by
    intro m
    by_cases hm : m = n
    · rw [hm, hn]
    · exact hs m hm
  have hmade : p.made = p'.made := funext fun i => hstate (.made i)
  have hhost : p.host = p'.host := by
    have hback : ∀ q : Program, q.host = { q.view n with state := q.state .common } :=
      fun _ => rfl
    rw [hback p, hback p', hv, hstate]
  cases p
  cases p'
  cases hmade
  cases hhost
  rfl

@[simp] theorem put_view (p : Program) (n : StateName) : p.put n (p.view n) = p :=
  ext_view (view_put p n _) fun _ hm => state_put_of_ne hm

/-! ## Reading -/

/-- **Only inputs were read** from a program through one of its states: no other state has
changed. -/
structure OnlyRead (readsClock makesNode : Bool) (n : StateName) (p p' : Program) : Prop where
  view : Host.OnlyRead readsClock makesNode (p.view n) (p'.view n)
  others : ∀ m, m ≠ n → p'.state m = p.state m

namespace OnlyRead

variable {readsClock makesNode : Bool}

theorem refl (n : StateName) (p : Program) : OnlyRead readsClock makesNode n p p :=
  ⟨.of_entropy (p.view n) (p.view n).entropy, fun _ _ => rfl⟩

theorem trans (h₁ : OnlyRead readsClock makesNode n p p')
    (h₂ : OnlyRead readsClock makesNode n p' p'') : OnlyRead readsClock makesNode n p p'' :=
  ⟨h₁.view.trans h₂.view, fun m hm => (h₂.others m hm).trans (h₁.others m hm)⟩

theorem mono (hr : OnlyRead false makesNode n p p') : OnlyRead readsClock makesNode n p p' :=
  ⟨hr.view.mono, hr.others⟩

/-- **Reading touches no clock domain of any state.** -/
theorem domain (hr : OnlyRead readsClock makesNode n p p') (m : StateName) (k : ClockKind) :
    (p'.state m).domain k = (p.state m).domain k := by
  by_cases hm : m = n
  · subst hm
    exact hr.view.domain k
  · rw [hr.others m hm]

/-- **Reading writes no file.** -/
theorem files (hr : OnlyRead readsClock makesNode n p p') : p'.host.files = p.host.files := by
  obtain ⟨_, _, _, hv⟩ := hr.view.same
  have hf : (p'.view n).files = (p.view n).files := by rw [hv]
  exact hf

end OnlyRead

end Program

/-! ## Events on the host -/

/-- What happens on a host beside the calls to generators. -/
inductive HostEvent
  /-- The clock is read. -/
  | look
  /-- The hardware address is looked up again. -/
  | lookUp
  /-- The clocks of the machine move. -/
  | pass (wall : Instant) (mono : Span)
  deriving DecidableEq, Repr

/-- The host after an event. -/
def Host.happen (h : Host) : HostEvent → Host
  | .look => (now h).2
  | .lookUp => (lookUp h).2
  | .pass wall mono => { h with wall, mono }

/-- Events meet hosts alike that differ in what was drawn. -/
theorem Host.OnlyRead.happen {makesNode : Bool} {h h' : Host} (hr : OnlyRead false makesNode h h')
    (e : HostEvent) : OnlyRead false makesNode (h.happen e) (h'.happen e) := by
  have hclock := hr.clock_eq
  have hnode := hr.node
  obtain ⟨entropy, clock, randomNode, rfl⟩ := hr.same
  have hc : clock = h.clock := hclock
  subst hc
  cases e with
  | look | lookUp | pass => exact ⟨⟨_, _, _, rfl⟩, Or.inl rfl, hnode⟩

namespace Program

variable {makesNode : Bool} {p p' : Program} {n : StateName}

/-- The program after an event on its host. -/
def happen (p : Program) (e : HostEvent) : Program := { p with host := p.host.happen e }

theorem view_happen (p : Program) (n : StateName) (e : HostEvent) :
    (p.happen e).view n = (p.view n).happen e := by
  cases n <;> cases e <;> rfl

theorem state_happen (p : Program) (n : StateName) (e : HostEvent) :
    (p.happen e).state n = p.state n := by
  cases n <;> cases e <;> rfl

theorem OnlyRead.happen (hr : OnlyRead false makesNode n p p') (e : HostEvent) :
    OnlyRead false makesNode n (p.happen e) (p'.happen e) := by
  refine ⟨?_, fun m hm => ?_⟩
  · rw [view_happen, view_happen]
    exact hr.view.happen e
  · rw [state_happen, state_happen]
    exact hr.others m hm

/-- The program once a call to a generator has made it look at the clock of the host. -/
def heard (readsClock : Bool) (q : Request) (p : Program) : Program :=
  if readsClock = true ∧ q = .fresh then p.happen .look else p

variable {readsClock : Bool} {q : Request}

theorem view_heard (p : Program) (n : StateName) :
    (p.heard readsClock q).view n = (p.view n).heard readsClock q := by
  unfold heard Host.heard
  split
  · exact view_happen p n .look
  · rfl

theorem state_heard (p : Program) (n : StateName) :
    (p.heard readsClock q).state n = p.state n := by
  unfold heard
  split
  · exact state_happen p n .look
  · rfl

theorem OnlyRead.heard (hr : OnlyRead false makesNode n p p') :
    OnlyRead false makesNode n (p.heard readsClock q) (p'.heard readsClock q) := by
  unfold Program.heard
  split
  · exact hr.happen .look
  · exact hr

theorem onlyRead_heard (p : Program) :
    OnlyRead readsClock makesNode n p (p.heard readsClock q) := by
  refine ⟨?_, fun m _ => state_heard p m⟩
  rw [view_heard]
  exact Host.onlyRead_heard readsClock makesNode q (p.view n)

end Program

/-! ## Generators that are bound to a state -/

namespace Bound

open Program (OnlyRead)

theorem answer_eq (g : Bound) (q : Request) (p : Program) :
    g.answer q p =
      (((g.generator.answer q (p.view g.state)).1.1,
        ⟨(g.generator.answer q (p.view g.state)).1.2, g.state⟩),
        p.put g.state (g.generator.answer q (p.view g.state)).2) := rfl

/-- **What a generator can become** on its state. -/
structure Becomes (g g' : Bound) : Prop where
  state : g'.state = g.state
  generator : g.generator.Becomes g'.generator

variable {b t : TimeBased} {n : StateName}

theorem Becomes.timeBased {g' : Bound} (hg : Becomes ⟨.timeBased t, n⟩ g') :
    ∃ t', g' = ⟨.timeBased t', n⟩ ∧ t.Alike t' := by
  obtain ⟨hstate, hgenerator⟩ := hg
  obtain ⟨t', he, ht⟩ := hgenerator.timeBased
  cases g'
  cases hstate
  cases he
  exact ⟨t', rfl, ht⟩

/-- **A generator of version 1 or 6 refuses all but requests for a new UUID**, and nothing moves. -/
theorem Becomes.refused {g' : Bound} (hg : Becomes ⟨.timeBased t, n⟩ g') {q : Request}
    (hq : q ≠ .fresh) (p : Program) : ∃ e, g'.answer q p = ((.error e, g'), p) := by
  obtain ⟨t', rfl, -⟩ := hg.timeBased
  obtain ⟨e, he⟩ := Generator.answer_of_ne_fresh hq t' (p.view n)
  refine ⟨e, ?_⟩
  rw [answer_eq, he, Program.put_view]

/-- A generator of version 1 or 6 becomes one that reads the same. -/
theorem alike_answer (ht : b.Alike t) (q : Request) (p : Program) :
    ∃ t', (answer ⟨.timeBased t, n⟩ q p).1.2 = ⟨.timeBased t', n⟩ ∧ b.Alike t' := by
  have hasked : Becomes ⟨.timeBased t, n⟩ (answer ⟨.timeBased t, n⟩ q p).1.2 :=
    ⟨rfl, Generator.Becomes.refl.asked q (p.view n)⟩
  obtain ⟨t', he, ht'⟩ := hasked.timeBased
  exact ⟨t', he, ht.trans ht'⟩

/-- **A generator with a clock of its own only reads**, and looks at the clock of the host once for
a new UUID unless it has a source of time. -/
theorem onlyRead_answer (ht : b.Alike t) (hc : b.clock.kind? = none) (q : Request) (p : Program) :
    OnlyRead false (b.nodes.any NodeProvider.isNonVolatile) n (p.heard b.source.isSystem q)
      (answer ⟨.timeBased t, n⟩ q p).2 := by
  have hread := Generator.onlyRead_answer (ht.clock.trans hc) q (p.view n)
  rw [ht.source, ht.nodes] at hread
  rw [answer_eq]
  refine ⟨?_, fun m hm => ?_⟩
  · rw [Program.view_heard, Program.view_put]
    exact hread
  · rw [Program.state_heard]
    exact Program.state_put_of_ne hm

/-- The generator and the program after a row of requests. -/
def askAll (g : Bound) (qs : List Request) (p : Program) : Bound × Program :=
  qs.foldl (fun s q => ((s.1.answer q s.2).1.2, (s.1.answer q s.2).2)) (g, p)

/-- **A row of requests only reads** as well. -/
theorem onlyRead_askAll (ht : b.Alike t) (hc : b.clock.kind? = none) (qs : List Request)
    (p : Program) :
    OnlyRead b.source.isSystem (b.nodes.any NodeProvider.isNonVolatile) n p
      (askAll ⟨.timeBased t, n⟩ qs p).2 := by
  induction qs generalizing t p with
  | nil => exact .refl n p
  | cons q qs ih =>
    have hread := (Program.onlyRead_heard p).trans (onlyRead_answer (n := n) ht hc q p).mono
    obtain ⟨t', he, ht'⟩ := alike_answer (n := n) ht q p
    have hrest := ih ht' (answer ⟨.timeBased t, n⟩ q p).2
    rw [← he] at hrest
    exact hread.trans hrest

end Bound

end UuidForge
