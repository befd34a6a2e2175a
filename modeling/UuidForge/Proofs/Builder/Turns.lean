import Mathlib.Data.Nat.Notation
import Mathlib.Logic.Function.Basic
import UuidForge.Proofs.Program
import UuidForge.Proofs.State.Run

/-!
# Taking turns

A generator of version 1 or 6 with a clock of its own takes turns with other generators, which are
bound to any states, with what happens to these states, and with what happens on the host. The run
is compared with one in which the generator is silent. The two differ in what the generator reads:
entropy, the random node id of its state, and the clock of the host. The first two are supplied to
the others from outside, turn by turn. The third cannot be: there is one clock, and a reading of it
may move its anchor. So a bare look at the clock is left where the generator has read it.

* `Turn.quiet`: what is left of a turn when the generator is silent.
* `Company.Shadows`: a silent run beside the full one.
* `Company.Shadows.call`, `Company.Shadows.meet`: **each turn keeps the two runs side by side.**
* `Company.Shadows.run`: **the others are given the same** in both runs, which end alike.
-/

namespace UuidForge

open Program (OnlyRead)

/-! ## Supplies -/

/-- **What others find on the host**, whatever was drawn before: the octets that they will draw and,
where it is given, the random node id of a state. -/
structure Supply where
  entropy : Entropy
  randomNode : Option (Option NodeId) := none

/-- A host with a supply. -/
def Host.supplied (h : Host) (s : Supply) : Host :=
  { h with
    entropy := s.entropy
    state := { h.state with randomNode := s.randomNode.getD h.state.randomNode } }

/-- A program with a supply on one of its states. -/
def Program.supplied (p : Program) (n : StateName) (s : Supply) : Program :=
  p.put n ((p.view n).supplied s)

theorem Host.supplied_eq {makesNode : Bool} {h h' : Host} (hr : Host.OnlyRead false makesNode h h')
    {s : Supply} (hn : makesNode = true → s.randomNode.isSome) : h'.supplied s = h.supplied s := by
  have hclock := hr.clock_eq
  have hnode : s.randomNode.getD h'.state.randomNode = s.randomNode.getD h.state.randomNode := by
    cases hs : s.randomNode with
    | some n => rfl
    | none =>
      rcases hr.node with hsame | ⟨hm, -⟩
      · exact hsame
      · simpa [hs] using hn hm
  unfold supplied
  rw [hnode]
  obtain ⟨_, _, _, rfl⟩ := hr.same
  dsimp only at hclock ⊢
  rw [hclock]

/-- **A supply makes up for what was read.** -/
theorem Program.supplied_eq {makesNode : Bool} {n : StateName} {p p' : Program}
    (hr : OnlyRead false makesNode n p p') {s : Supply}
    (hn : makesNode = true → s.randomNode.isSome) : p'.supplied n s = p.supplied n s := by
  unfold supplied
  refine ext_view (n := n) ?_ fun m hm => ?_
  · rw [view_put, view_put]
    exact Host.supplied_eq hr.view hn
  · rw [state_put_of_ne hm, state_put_of_ne hm]
    exact hr.others m hm

/-! ## Turns -/

/-- One turn of a generator among others. -/
inductive Turn
  /-- The generator is asked. -/
  | own (q : Request)
  /-- Another generator is asked. -/
  | other (i : ℕ) (q : Request) (s : Supply)
  /-- Something happens to a generator state. -/
  | state (n : StateName) (e : StateEvent) (s : Supply)
  /-- Something happens on the host. -/
  | host (e : HostEvent)

namespace Turn

/-- The turn is not one of the generator. -/
def isOther : Turn → Bool
  | own _ => false
  | other .. | state .. | host _ => true

/-- **What is left of a turn** when the generator is silent. A call that made it look at the clock
of the host leaves the look, and any other call nothing. -/
def quiet (readsClock : Bool) : Turn → Option Turn
  | own q => if readsClock = true ∧ q = .fresh then some (host .look) else none
  | t => some t

theorem filterMap_quiet_false (ts : List Turn) :
    ts.filterMap (Turn.quiet false) = ts.filter Turn.isOther := by
  rw [← List.filterMap_eq_filter]
  congr 1
  funext t
  cases t with
  | own q => simp [quiet, isOther, Option.guard]
  | other | state | host => rfl

theorem quiet_of_isOther {t : Turn} (ht : t.isOther) (readsClock : Bool) :
    t.quiet readsClock = some t := by
  cases t with
  | own => cases ht
  | other | state | host => rfl

/-- The supply of a turn makes up for a random node id that the generator may have made. -/
def MakesUp (makesNode : Bool) : Turn → Prop
  | other _ _ s | state _ _ s => makesNode = true → s.randomNode.isSome
  | own _ | host _ => True

end Turn

/-- A generator among others on one program. -/
structure Company where
  own : Bound
  others : ℕ → Bound
  program : Program

namespace Company

/-- The program with a supply on the state of the generator. -/
def supplied (c : Company) (s : Supply) : Program := c.program.supplied c.own.state s

/-- The company after a turn. -/
def step (c : Company) : Turn → Company
  | .own q =>
    { c with own := (c.own.answer q c.program).1.2, program := (c.own.answer q c.program).2 }
  | .other i q s =>
    { c with
      others := Function.update c.others i ((c.others i).answer q (c.supplied s)).1.2
      program := ((c.others i).answer q (c.supplied s)).2 }
  | .state n e s => { c with program := (c.supplied s).put n (((c.supplied s).view n).step e) }
  | .host e => { c with program := c.program.happen e }

/-- What another generator is given in a turn. -/
def reply? (c : Company) : Turn → Option (Except Error Uuid)
  | .other i q s => some ((c.others i).answer q (c.supplied s)).1.1
  | .own _ | .state .. | .host _ => none

/-- **What the others are given**, in order. -/
def replies : Company → List Turn → List (Except Error Uuid)
  | _, [] => []
  | c, t :: ts => (c.reply? t).toList ++ replies (c.step t) ts

/-- The company after a row of turns. -/
def after (c : Company) (ts : List Turn) : Company := ts.foldl step c

/-- **A silent run beside the full one.** The others are the same, and the programs differ at most
in what was drawn and in the random node id. -/
structure Shadows (b : TimeBased) (n : StateName) (c c' : Company) : Prop where
  state : c.own.state = n
  own : ∃ t, c'.own = ⟨.timeBased t, n⟩ ∧ b.Alike t
  others : c'.others = c.others
  program : OnlyRead false (b.nodes.any NodeProvider.isNonVolatile) n c.program c'.program

namespace Shadows

variable {b : TimeBased} {n : StateName} {c c' : Company}

theorem supplied_eq (hs : Shadows b n c c') {s : Supply}
    (hn : b.nodes.any NodeProvider.isNonVolatile = true → s.randomNode.isSome) :
    c'.supplied s = c.supplied s := by
  obtain ⟨_, hown, -⟩ := hs.own
  unfold supplied
  rw [hown, hs.state]
  exact Program.supplied_eq hs.program hn

/-- **A call to the generator** leaves at most a look at the clock. -/
theorem call (hs : Shadows b n c c') (hc : b.clock.kind? = none) (q : Request) :
    Shadows b n { c with program := c.program.heard b.source.isSystem q } (c'.step (.own q)) := by
  obtain ⟨t, hown, ht⟩ := hs.own
  obtain ⟨t', he, ht'⟩ := Bound.alike_answer (n := n) ht q c'.program
  refine ⟨hs.state, ⟨t', ?_, ht'⟩, hs.others, ?_⟩
  · rw [step, hown, he]
  · rw [step, hown]
    exact hs.program.heard.trans (Bound.onlyRead_answer ht hc q c'.program)

/-- **Any other turn** is the same in both runs. -/
theorem meet (hs : Shadows b n c c') {t : Turn} (ht : t.isOther)
    (hn : t.MakesUp (b.nodes.any NodeProvider.isNonVolatile)) :
    c'.reply? t = c.reply? t ∧ Shadows b n (c.step t) (c'.step t) := by
  have hsupply : ∀ s : Supply,
      (b.nodes.any NodeProvider.isNonVolatile = true → s.randomNode.isSome) →
      c'.supplied s = c.supplied s := fun s => hs.supplied_eq
  obtain ⟨hstate, hown, hothers, hprogram⟩ := hs
  cases t with
  | own q => cases ht
  | other i q s =>
    rw [reply?, reply?, step, step, hsupply s hn, hothers]
    exact ⟨rfl, hstate, hown, rfl, .refl _ _⟩
  | state m e s =>
    rw [step, step, hsupply s hn]
    exact ⟨rfl, hstate, hown, hothers, .refl _ _⟩
  | host e => exact ⟨rfl, hstate, hown, hothers, hprogram.happen e⟩

/-- **The others are given the same** when the generator is silent, and both runs end alike. -/
theorem run (hs : Shadows b n c c') (hc : b.clock.kind? = none) {ts : List Turn}
    (hts : ∀ t ∈ ts, t.MakesUp (b.nodes.any NodeProvider.isNonVolatile)) :
    c'.replies ts = c.replies (ts.filterMap (Turn.quiet b.source.isSystem)) ∧
      Shadows b n (c.after (ts.filterMap (Turn.quiet b.source.isSystem))) (c'.after ts) := by
  induction ts generalizing c c' with
  | nil => exact ⟨rfl, hs⟩
  | cons t ts ih =>
    have hrest : ∀ t ∈ ts, t.MakesUp (b.nodes.any NodeProvider.isNonVolatile) :=
      fun x hx => hts x (List.mem_cons_of_mem t hx)
    by_cases ht : t.isOther
    · obtain ⟨hreply, hstep⟩ := hs.meet ht (hts t List.mem_cons_self)
      obtain ⟨hreplies, hafter⟩ := ih hstep hrest
      rw [List.filterMap_cons_some (Turn.quiet_of_isOther ht _), replies, replies, hreply, hreplies]
      exact ⟨rfl, hafter⟩
    · cases t with
      | own q =>
        have hcall := ih (hs.call hc q) hrest
        unfold Program.heard at hcall
        by_cases hlook : b.source.isSystem = true ∧ q = .fresh
        · have hquiet : Turn.quiet b.source.isSystem (.own q) = some (.host .look) := if_pos hlook
          rw [if_pos hlook] at hcall
          rw [List.filterMap_cons_some hquiet]
          exact hcall
        · have hquiet : Turn.quiet b.source.isSystem (.own q) = none := if_neg hlook
          rw [if_neg hlook] at hcall
          rw [List.filterMap_cons_none hquiet]
          exact hcall
      | other | state | host => exact absurd rfl ht

end Shadows

end Company

end UuidForge
