import UuidForge.Host
import UuidForge.Proofs.Clock.Trail
import UuidForge.Proofs.State.Storage

/-!
# Runs of a generator state

A run takes the generator state of a host through events: refreshes, saves, loads, restarts and all
else that can happen to it. `h.after es n` is the host after the first `n` events. A run leaves a
trail in each clock domain.

* `Host.hands_step`: a refresh hands out from its domain.
* `Host.domain_step_of_ne`: it leaves the other domain alone.
* `Host.domain_restart`: **a state that is started again has the sequences of the state before**,
  and its clocks have not gone back.
* `Host.regularIn_of_continues`: **an event that continues the state is regular in both domains.**
-/

namespace UuidForge

/-- How a state ends before a new one takes its place. -/
inductive Ending
  /-- With a save, after which nothing happens to it. -/
  | saved
  /-- It is given up, and what was not saved yet is written. -/
  | dropped
  deriving DecidableEq, Repr

/-- What can happen to the generator state of a host. -/
inductive StateEvent
  | refresh (k : ClockKind) (t : Ticks) (node : Option NodeId)
  | save
  /-- The random node id is asked for. -/
  | node
  | attach (path : Option String)
  | reset
  | listen (l : Listener)
  /-- A new state takes the place of the old one and is attached to its file. -/
  | restart (ending : Ending)
  /-- The monotonic clock moves. -/
  | pass (mono : Span)
  deriving DecidableEq, Repr

/-- An event that neither loads a file nor starts the state over. -/
def StateEvent.isSteady : StateEvent → Bool
  | attach _ | reset | restart _ => false
  | refresh .. | save | node | listen _ | pass _ => true

namespace Host

/-- A new state in place of the old one, which has ended. -/
def renewed (h : Host) : Ending → Host
  | .saved =>
    let h := (save h).2
    let (state, entropy) := GeneratorState.create h.entropy
    { h with state, entropy }
  | .dropped => (restart h).2

/-- The old state was written to its file when it ended. -/
def endsWell (h : Host) : Ending → Bool
  | .saved => (save h).1
  | .dropped =>
    match h.state.path with
    | some path => (GeneratorState.storeRecord h.files path h.state.snapshot).1
    | none => false

/-- The host after an event. -/
def step (h : Host) : StateEvent → Host
  | .refresh k t node => (refresh k t node h).2
  | .save => (save h).2
  | .node => (nonVolatileNode h).2
  | .attach path => (attach path h).2
  | .reset => (reset h).2
  | .listen l => { h with state := h.state.listen l }
  | .restart ending => (attach h.state.path (h.renewed ending)).2
  | .pass mono => { h with mono }

/-- **The host after the first `n` events.** -/
def after (h : Host) (es : ℕ → StateEvent) : ℕ → Host
  | 0 => h
  | n + 1 => (h.after es n).step (es n)

/-- What an event hands out from a clock domain. -/
def handedIn (h : Host) (k : ClockKind) : StateEvent → Option Stamped
  | .refresh l t node => if l = k then some (t, (refresh l t node h).1) else none
  | _ => none

/-- **The trail of a run** in a clock domain. -/
def stateTrail (h : Host) (es : ℕ → StateEvent) (k : ClockKind) : Trail where
  clock n := (h.after es n).state.domain k
  handed n := (h.after es n).handedIn k (es n)

/-- An event goes on with the state: it is no reset and loads no file, unless the state has just
been written to that file. -/
def Continues (h : Host) : StateEvent → Prop
  | .attach path => (attach path h).1 = false
  | .reset => False
  | .restart ending => h.endsWell ending
  | .refresh .. | .save | .node | .listen _ | .pass _ => True

variable {h : Host} {k l : ClockKind} {t : Ticks} {node : Option NodeId}

theorem hands_step (h : Host) (k : ClockKind) (t : Ticks) (node : Option NodeId) :
    (h.state.domain k).Hands (t, (refresh k t node h).1)
      ((h.step (.refresh k t node)).state.domain k) :=
  ⟨node, (h.state.refresh_fst t node h.mono h.files).symm,
    (h.state.domain_refresh_self t node h.mono h.files).symm⟩

theorem domain_step_of_ne (hl : l ≠ k) :
    (h.step (.refresh k t node)).state.domain l = h.state.domain l :=
  h.state.domain_refresh_of_ne t node h.mono h.files hl

/-! ## Loads -/

/-- **A load.** -/
theorem attach_of_loadRecord {path : String} {r : StateRecord}
    (hr : GeneratorState.loadRecord h.files path = .ok r) :
    (attach (some path) h).1 = true ∧ (attach (some path) h).2.state =
      ({ h.state with path := some path, lastSave := none }.restore r h.entropy).1 := by
  simp only [attach, GeneratorState.attach_of_ok hr]
  trivial

/-- A file that is not loaded moves no clock. -/
theorem domain_attach_of_false {path : Option String} (ha : (attach path h).1 = false) :
    (attach path h).2.state.domain k = h.state.domain k := by
  cases path with
  | none => cases k <;> rfl
  | some path =>
    cases hr : GeneratorState.loadRecord h.files path with
    | ok r => rw [(attach_of_loadRecord hr).1] at ha; cases ha
    | error e =>
      simp only [attach, GeneratorState.attach_of_error hr, GeneratorState.domain_report]
      cases k <;> rfl

/-! ## Restarts -/

/-- A state that ended well has left its snapshot in its file. -/
theorem loadRecord_of_endsWell {ending : Ending} (he : h.endsWell ending) :
    ∃ path, h.state.path = some path ∧
      GeneratorState.loadRecord (h.renewed ending).files path = .ok h.state.snapshot := by
  have hload : ∀ path, (GeneratorState.storeRecord h.files path h.state.snapshot).1 = true →
      GeneratorState.loadRecord (GeneratorState.storeRecord h.files path h.state.snapshot).2 path =
        .ok h.state.snapshot := by
    intro path hw
    rw [GeneratorState.loadRecord_of_storeRecord (Prod.ext hw rfl), GeneratorState.masked_snapshot]
  cases hp : h.state.path with
  | none => cases ending <;> simp [endsWell, save, GeneratorState.save, hp] at he
  | some path =>
    refine ⟨path, rfl, ?_⟩
    cases ending with
    | saved =>
      simp only [endsWell, save, GeneratorState.save, hp] at he
      simp only [renewed, save, GeneratorState.save, hp]
      exact hload path he
    | dropped =>
      simp only [endsWell, hp] at he
      simp only [renewed, restart, GeneratorState.flush, hp]
      exact hload path he

/-- **A state that is started again** has the sequences of the state before, and both clocks stand
at the later of its timestamps. -/
theorem domain_restart {ending : Ending} (he : h.endsWell ending) (k : ClockKind) :
    ((h.step (.restart ending)).state.domain k).sequence = (h.state.domain k).sequence ∧
      ((h.step (.restart ending)).state.domain k).last = h.state.latest := by
  obtain ⟨path, hp, hl⟩ := loadRecord_of_endsWell he
  rw [step, hp, (attach_of_loadRecord hl).2]
  exact GeneratorState.domain_restore GeneratorState.matches_snapshot _ _ k

/-! ## Continued runs -/

/-- An event is a refresh of a domain, or keeps it. -/
def RegularIn (h : Host) (k : ClockKind) (e : StateEvent) : Prop :=
  match h.handedIn k e with
  | some p => (h.state.domain k).Hands p ((h.step e).state.domain k)
  | none => (h.state.domain k).Kept ((h.step e).state.domain k)

theorem regular_stateTrail (h : Host) (es : ℕ → StateEvent) (k : ClockKind) (n : ℕ) :
    (h.stateTrail es k).Regular n ↔ (h.after es n).RegularIn k (es n) := Iff.rfl

theorem hands_of_handedIn {e : StateEvent} {p : Stamped} (hp : h.handedIn k e = some p) :
    (h.state.domain k).Hands p ((h.step e).state.domain k) := by
  cases e with
  | refresh l t node =>
    by_cases hl : l = k
    · subst hl
      rw [handedIn, if_pos rfl, Option.some.injEq] at hp
      rw [← hp]
      exact h.hands_step l t node
    · rw [handedIn, if_neg hl] at hp
      cases hp
  | save | node | attach | reset | listen | restart | pass => cases hp

/-- A steady event that is no refresh of a domain does not move it. -/
theorem domain_step_of_steady {e : StateEvent} (he : e.isSteady) (hn : h.handedIn k e = none) :
    (h.step e).state.domain k = h.state.domain k := by
  cases e with
  | refresh l t node =>
    have hl : k ≠ l := fun hl => by simp [handedIn, hl] at hn
    exact domain_step_of_ne hl
  | save => exact GeneratorState.domain_save h.state h.mono h.files
  | node => exact GeneratorState.domain_nonVolatileNode h.state h.entropy
  | listen l => exact GeneratorState.domain_listen h.state l
  | pass mono => rfl
  | attach | reset | restart => cases he

theorem regularIn_of_kept {e : StateEvent} (hk : h.handedIn k e = none →
    (h.state.domain k).Kept ((h.step e).state.domain k)) : h.RegularIn k e := by
  unfold RegularIn
  cases hp : h.handedIn k e with
  | some p => exact hands_of_handedIn hp
  | none => exact hk hp

theorem regularIn_of_steady {e : StateEvent} (he : e.isSteady) (k : ClockKind) :
    h.RegularIn k e :=
  regularIn_of_kept fun hn => by
    rw [domain_step_of_steady he hn]
    exact ClockState.Kept.refl _

/-- **An event that continues the state is regular in both domains.** -/
theorem regularIn_of_continues {e : StateEvent} (hc : h.Continues e) (k : ClockKind) :
    h.RegularIn k e := by
  cases e with
  | attach path =>
    refine regularIn_of_kept fun _ => ?_
    rw [step, domain_attach_of_false hc]
    exact ClockState.Kept.refl _
  | reset => exact hc.elim
  | restart ending =>
    obtain ⟨hs, hl⟩ := domain_restart hc k
    exact regularIn_of_kept fun _ => ⟨hs, by rw [hl]; exact h.state.last_le_latest k⟩
  | refresh | save | node | listen | pass => exact regularIn_of_steady rfl k

end Host

end UuidForge
