import UuidForge.Proofs.State.Run

/-!
# Generation beside storage and the other domain

A clock domain hands out what it would hand out on its own. Neither the other domain, nor the file
of the state, nor what becomes of a load that fails and of a save that is refused shows in the
sequences. Others may put any files in place at any time, so loads fail and writes succeed or fail
in any pattern.

* `Host.meet_cases`: **a domain is refreshed as if it were alone, or left as it is.**
* `Host.handedOut_eq_answers`: what a run hands out from a domain, told by the domain alone.
* `Host.generation_independent`: **two runs that ask the same of a domain hand out the same.**
-/

namespace UuidForge

/-- What a domain is asked for: a time, and a node id if there is one. -/
abbrev Asking := Ticks × Option NodeId

namespace ClockState

/-- The sequences that a clock state hands out, one for each refresh. -/
def answers : ClockState → List Asking → List ClockSequence
  | _, [] => []
  | c, q :: qs => (c.refresh q.1 q.2).1.sequence :: (c.refresh q.1 q.2).2.answers qs

/-- The clock state after a row of refreshes. -/
def afterAll (c : ClockState) (qs : List Asking) : ClockState :=
  qs.foldl (fun c q => (c.refresh q.1 q.2).2) c

end ClockState

/-- What happens around the generator state of a host. -/
inductive Occurrence
  /-- An event of the state. -/
  | own (e : StateEvent)
  /-- Others put files in place, or draw from the entropy. -/
  | outside (files : FileTree) (entropy : Entropy)

namespace Occurrence

/-- What an occurrence asks of a domain. -/
def asks? (k : ClockKind) : Occurrence → Option Asking
  | own (.refresh l t node) => if l = k then some (t, node) else none
  | _ => none

/-- All that a run asks of a domain, in order. -/
def asked (k : ClockKind) (os : List Occurrence) : List Asking := os.filterMap (asks? k)

theorem asked_cons (k : ClockKind) (o : Occurrence) (os : List Occurrence) :
    asked k (o :: os) = (o.asks? k).toList ++ asked k os := by
  unfold asked
  rw [List.filterMap_cons]
  cases o.asks? k with
  | none => rfl
  | some q => rfl

end Occurrence

namespace Host

variable {h h₁ h₂ : Host} {k : ClockKind} {o : Occurrence} {os os₁ os₂ : List Occurrence}

/-- The host after an occurrence. -/
def meet (h : Host) : Occurrence → Host
  | .own e => h.step e
  | .outside files entropy => { h with files, entropy }

def meetAll (h : Host) (os : List Occurrence) : Host := os.foldl meet h

/-- The sequence that an occurrence hands out from a domain. -/
def sequence? (h : Host) (k : ClockKind) : Occurrence → Option ClockSequence
  | .own e => (h.handedIn k e).map Prod.snd
  | .outside .. => none

/-- **The sequences that a run hands out** from a domain. -/
def handedOut (k : ClockKind) : Host → List Occurrence → List ClockSequence
  | _, [] => []
  | h, o :: os => (h.sequence? k o).toList ++ handedOut k (h.meet o) os

/-- No load and no reset takes the place of the clocks. -/
def leavesClocks (h : Host) : Occurrence → Bool
  | .own (.attach path) => !(attach path h).1
  | .own e => e.isSteady
  | .outside .. => true

/-- Nothing is loaded in a run, and the state is not started over. -/
def Undisturbed : Host → List Occurrence → Prop
  | _, [] => True
  | h, o :: os => h.leavesClocks o ∧ (h.meet o).Undisturbed os

theorem domain_meet (ho : h.leavesClocks o) (hn : o.asks? k = none) :
    (h.meet o).state.domain k = h.state.domain k ∧ h.sequence? k o = none := by
  cases o with
  | outside files entropy => exact ⟨rfl, rfl⟩
  | own e =>
    have hh : h.handedIn k e = none := by
      cases e with
      | refresh l t node =>
        have hl : l ≠ k := by
          intro hl
          simp [Occurrence.asks?, hl] at hn
        rw [handedIn, if_neg hl]
      | save | node | attach | reset | listen | restart | pass => rfl
    have hs : h.sequence? k (.own e) = none := by
      rw [sequence?, hh]
      rfl
    refine ⟨?_, hs⟩
    show (h.step e).state.domain k = h.state.domain k
    cases e with
    | attach path =>
      have ha : (attach path h).1 = false := by simpa [leavesClocks] using ho
      exact domain_attach_of_false ha
    | refresh | save | node | listen | pass => exact domain_step_of_steady rfl hh
    | reset | restart => cases ho

/-- **A domain is refreshed as if it were alone, or left as it is.** Whether the save of a refresh
is due, succeeds or fails makes no difference. -/
theorem meet_cases (ho : h.leavesClocks o) :
    (o.asks? k = none ∧ h.sequence? k o = none ∧
      (h.meet o).state.domain k = h.state.domain k) ∨
    ∃ t node, o.asks? k = some (t, node) ∧
      h.sequence? k o = some ((h.state.domain k).refresh t node).1.sequence ∧
      (h.meet o).state.domain k = ((h.state.domain k).refresh t node).2 := by
  cases ha : o.asks? k with
  | none =>
    obtain ⟨hd, hs⟩ := domain_meet ho ha
    exact Or.inl ⟨rfl, hs, hd⟩
  | some q =>
    obtain ⟨l, t, node, rfl⟩ : ∃ l t node, o = .own (.refresh l t node) := by
      cases o with
      | outside => cases ha
      | own e =>
        cases e with
        | refresh l t node => exact ⟨l, t, node, rfl⟩
        | save | node | attach | reset | listen | restart | pass => cases ha
    have hl : l = k := by
      by_contra hl
      simp [Occurrence.asks?, hl] at ha
    subst hl
    have hq : q = (t, node) := by simpa [Occurrence.asks?] using ha.symm
    subst hq
    refine Or.inr ⟨t, node, rfl, ?_, ?_⟩
    · have hfst := h.state.refresh_fst (k := l) t node h.mono h.files
      rw [sequence?, handedIn, if_pos rfl, ← hfst]
      rfl
    · exact h.state.domain_refresh_self t node h.mono h.files

/-- **What a run hands out from a domain** is told by the domain alone, and so is where it leaves
the clock. -/
theorem handedOut_eq_answers (hu : h.Undisturbed os) :
    handedOut k h os = (h.state.domain k).answers (Occurrence.asked k os) ∧
      (h.meetAll os).state.domain k = (h.state.domain k).afterAll (Occurrence.asked k os) := by
  -- the clock of the domain is carried along; all else on the host may differ
  induction os generalizing h with
  | nil => exact ⟨rfl, rfl⟩
  | cons o os ih =>
    obtain ⟨ho, hos⟩ := hu
    obtain ⟨ih₁, ih₂⟩ := ih hos
    have hall : h.meetAll (o :: os) = (h.meet o).meetAll os := rfl
    rw [handedOut, hall, Occurrence.asked_cons, ih₁, ih₂]
    rcases meet_cases (k := k) ho with ⟨ha, hs, hd⟩ | ⟨t, node, ha, hs, hd⟩
    · rw [ha, hs, hd]
      exact ⟨rfl, rfl⟩
    · rw [ha, hs, hd]
      exact ⟨rfl, rfl⟩

/-- **Generation does not depend on storage or on the other domain.** Two runs that find the same
clock in a domain and ask the same of it hand out the same sequences from it and leave the same
clock behind, whatever else differs: the state, its listener, its file, the other domain, the other
events in between, and the files that loads and saves meet with. -/
theorem generation_independent (hd : h₁.state.domain k = h₂.state.domain k)
    (ha : Occurrence.asked k os₁ = Occurrence.asked k os₂) (hu₁ : h₁.Undisturbed os₁)
    (hu₂ : h₂.Undisturbed os₂) :
    handedOut k h₁ os₁ = handedOut k h₂ os₂ ∧
      (h₁.meetAll os₁).state.domain k = (h₂.meetAll os₂).state.domain k := by
  obtain ⟨hs₁, hc₁⟩ := handedOut_eq_answers (k := k) hu₁
  obtain ⟨hs₂, hc₂⟩ := handedOut_eq_answers (k := k) hu₂
  constructor
  · rw [hs₁, hs₂, hd, ha]
  · rw [hc₁, hc₂, hd, ha]

/-! ## A file that cannot be written at first -/

/-- A host whose state has no file. -/
def detached : Host := start (.ofScript #[]) 0 none 0

/-- A host whose state has its file where a directory lies, and a listener. -/
def blocked : Host :=
  { detached with
    state := { detached.state with path := some "state.bin", listener := some 1 }
    files := { entries := [(["state.bin"], .directory)] } }

/-- Three refreshes of one domain and nothing else. -/
def alone : List Occurrence :=
  [.own (.refresh .physical 1000 (some 1)), .own (.refresh .physical 1000 (some 1)),
    .own (.refresh .physical 900 (some 2))]

/-- The same refreshes among others. -/
def beset : List Occurrence :=
  [.own (.refresh .physical 1000 (some 1)), .own (.attach (some "state.bin")),
    .own (.refresh .random 5 none), .own .node, .outside {} (.ofScript #[7]),
    .own (.refresh .physical 1000 (some 1)), .own .save, .own (.attach none),
    .own (.refresh .physical 900 (some 2))]

/-- The first write of the second run fails and is told to the listener, as is the load, and later
writes succeed. -/
theorem generation_independent_blocked :
    handedOut .physical detached alone = [0, 1, 2] ∧
      handedOut .physical blocked beset = [0, 1, 2] ∧
      (blocked.meetAll beset).state.deliveries.length = 3 ∧
      (blocked.meetAll beset).files ≠ {} := by
  have hu₁ : detached.Undisturbed alone := by
    refine ⟨?_, ?_, ?_, trivial⟩ <;> decide
  have hu₂ : blocked.Undisturbed beset := by
    refine ⟨?_, ?_, ?_, ?_, ?_, ?_, ?_, ?_, ?_, trivial⟩ <;> decide
  have ha : Occurrence.asked .physical alone = Occurrence.asked .physical beset := by decide
  have h₁ : handedOut .physical detached alone = [0, 1, 2] := by decide
  have hd : detached.state.domain .physical = blocked.state.domain .physical := rfl
  obtain ⟨hind, -⟩ := generation_independent hd ha hu₁ hu₂
  exact ⟨h₁, hind.symm.trans h₁, by decide, by decide⟩

end Host

end UuidForge
