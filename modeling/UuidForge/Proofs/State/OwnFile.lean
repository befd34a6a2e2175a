import UuidForge.Proofs.State.Run

/-!
# A state and its own file

A state writes its file when it is saved, by the caller or by a refresh that finds a save due. A
state that is attached to one path only, and whose writes all succeed, shares its sequences with
the file: whatever changes a sequence is written at once.

* `Host.writes?`: whether an event writes the file, and with what success.
* `Host.loadRecord_of_writes`: **what was written is the snapshot of the state.**
* `Host.Tied`: the file is not readable yet, or has the sequences of the state.
* `Host.tied_step`: **a state stays tied to its file** as long as nothing but its own events happen.
-/

namespace UuidForge.Host

variable {h : Host} {p : String} {e : StateEvent}

/-- The success of the write that an event makes, if it makes one. -/
def writes? (h : Host) : StateEvent → Option Bool
  | .refresh k t node =>
    let a := h.state.advance k t node
    if a.2.saveDue h.mono a.1.changed then
      h.state.path.map fun p => (GeneratorState.storeRecord h.files p a.2.snapshot).1
    else none
  | .save => h.state.path.map fun p => (GeneratorState.storeRecord h.files p h.state.snapshot).1
  | _ => none

/-- A refresh does not try to write: there is no path, or nothing but the timestamp is new and the
last save is less than a second old. -/
def Unattempted (h : Host) (k : ClockKind) (t : Ticks) (node : Option NodeId) : Prop :=
  h.state.path = none ∨ ((h.state.domain k).refresh t node).1.changed = false ∧
    ∃ last, h.state.lastSave = some last ∧ h.mono - last < GeneratorState.saveInterval

theorem saveDue_eq_false_iff (s : GeneratorState) (now : Span) (changed : Bool) :
    s.saveDue now changed = false ↔ s.path = none ∨ changed = false ∧
      ∃ last, s.lastSave = some last ∧ now - last < GeneratorState.saveInterval := by
  rw [GeneratorState.saveDue]
  cases s.path <;> cases changed <;> cases s.lastSave <;> simp

theorem saveDue_advance_iff (h : Host) (k : ClockKind) (t : Ticks) (node : Option NodeId) :
    (h.state.advance k t node).2.saveDue h.mono (h.state.advance k t node).1.changed = false ↔
      h.Unattempted k t node := by
  have hp : (h.state.advance k t node).2.path = h.state.path := by cases k <;> rfl
  have hs : (h.state.advance k t node).2.lastSave = h.state.lastSave := by cases k <;> rfl
  rw [saveDue_eq_false_iff, hp, hs]
  rfl

/-- **When a refresh tries to write**: a path is set, and something but the timestamp is new or the
last save is not recent. -/
theorem writes?_refresh_eq_none_iff {k : ClockKind} {t : Ticks} {node : Option NodeId} :
    h.writes? (.refresh k t node) = none ↔ h.Unattempted k t node := by
  have hiff := saveDue_advance_iff h k t node
  cases hdue : (h.state.advance k t node).2.saveDue h.mono
      (h.state.advance k t node).1.changed with
  | true =>
    -- a save is due, so a path is set
    have hun : ¬ h.Unattempted k t node := fun hun => by
      rw [hiff.2 hun] at hdue
      cases hdue
    have hp : h.state.path ≠ none := fun hp => hun (Or.inl hp)
    simp [writes?, hdue, hun, hp]
  | false => simp [writes?, hdue, hiff.1 hdue]

/-- An event of a state that is attached to one path only, and never started again. -/
def IsOwn (p : String) (e : StateEvent) : Prop := e.isSteady ∨ e = .attach (some p)

instance (p : String) (e : StateEvent) : Decidable (IsOwn p e) :=
  inferInstanceAs (Decidable (_ ∨ _))

theorem loadRecord_of_save {s : GeneratorState} {now : Span} {files : FileTree}
    (hp : s.path = some p) (hw : (GeneratorState.storeRecord files p s.snapshot).1 = true) :
    (s.save now files).2.1.path = some p ∧ (s.save now files).2.1.lastSave = some now ∧
      GeneratorState.loadRecord (s.save now files).2.2 p = .ok (s.save now files).2.1.snapshot := by
  have hl := GeneratorState.loadRecord_of_storeRecord
    (Prod.ext hw rfl : GeneratorState.storeRecord files p s.snapshot = (true, _))
  rw [GeneratorState.masked_snapshot] at hl
  simp only [GeneratorState.save, hp, hw, if_true]
  exact ⟨trivial, trivial, hl⟩

/-- **What was written is the snapshot of the state.** -/
theorem loadRecord_of_writes (hw : h.writes? e = some true) :
    ∃ p, h.state.path = some p ∧ (h.step e).state.path = some p ∧
      (h.step e).state.lastSave = some h.mono ∧
      GeneratorState.loadRecord (h.step e).files p = .ok (h.step e).state.snapshot := by
  cases e with
  | refresh k t node =>
    simp only [writes?] at hw
    split at hw
    · rename_i hdue
      obtain ⟨p, hp, hw⟩ := Option.map_eq_some_iff.1 hw
      have hp' : (h.state.advance k t node).2.path = some p := by
        rw [← hp]
        cases k <;> rfl
      refine ⟨p, hp, ?_⟩
      simp only [step, refresh, GeneratorState.refresh, hdue, if_true]
      exact loadRecord_of_save hp' hw
    · cases hw
  | save =>
    obtain ⟨p, hp, hw⟩ := Option.map_eq_some_iff.1 hw
    exact ⟨p, hp, loadRecord_of_save hp hw⟩
  | node | attach | reset | listen | restart | pass => cases hw

/-- A refresh that changes nothing but the timestamp keeps the sequence. -/
theorem sequence_of_unchanged {c : ClockState} {t : Ticks} {node : Option NodeId}
    (hc : (c.refresh t node).1.changed = false) :
    (c.refresh t node).2.sequence = c.sequence := by
  have hd : c.incrementDue t node = false := (Bool.or_eq_false_iff.1 hc).1
  rw [ClockState.refresh_sequence_eq, ClockState.sequence_refresh, hd]
  rfl

/-- Such a refresh keeps the node id as well. -/
theorem node_of_unchanged {c : ClockState} {t : Ticks} {node : Option NodeId}
    (hc : (c.refresh t node).1.changed = false) : (c.refresh t node).2.node = c.node := by
  obtain ⟨hd, ha⟩ := Bool.or_eq_false_iff.1 hc
  have hn : c.nodeChanged node = false := (Bool.or_eq_false_iff.1 hd).2
  show (node <|> c.node) = c.node
  cases node with
  | none => rfl
  | some n =>
    cases hp : c.node with
    | none => simp [ClockState.nodeAppeared, hp] at ha
    | some m =>
      have hm : m = n := by simpa [ClockState.nodeChanged, hp] using hn
      rw [hm]
      rfl

/-- A state goes on with its file as it is: nothing is written, and with a path no sequence and no
node id is new. -/
structure Unwritten (h h' : Host) : Prop where
  files : h'.files = h.files
  path : h'.state.path = h.state.path
  lastSave : h'.state.lastSave = h.state.lastSave
  sequence : h.state.path.isSome →
    ∀ l, (h'.state.domain l).sequence = (h.state.domain l).sequence
  node : h.state.path.isSome → ∀ l, (h'.state.domain l).node = (h.state.domain l).node

/-- No clock moves, so no sequence and no node id is new. -/
theorem Unwritten.of_domain {h h' : Host} (files : h'.files = h.files)
    (path : h'.state.path = h.state.path) (lastSave : h'.state.lastSave = h.state.lastSave)
    (domain : ∀ l, h'.state.domain l = h.state.domain l) : Unwritten h h' :=
  ⟨files, path, lastSave, fun _ l => congrArg _ (domain l), fun _ l => congrArg _ (domain l)⟩

/-- **An event that neither writes nor loads** leaves the files alone, and with a path the sequences
and the node ids too. -/
theorem step_of_writes_none (he : e.isSteady) (hw : h.writes? e = none) :
    Unwritten h (h.step e) := by
  cases e with
  | refresh k t node =>
    have hidle := writes?_refresh_eq_none_iff.1 hw
    have hdue := (saveDue_advance_iff h k t node).2 hidle
    have hs : h.step (.refresh k t node) = { h with state := (h.state.advance k t node).2 } := by
      simp only [step, refresh, GeneratorState.refresh, hdue]
      rfl
    rw [hs]
    have hun : h.state.path.isSome → ((h.state.domain k).refresh t node).1.changed = false := by
      intro hp
      rcases hidle with hn | ⟨hc, -⟩
      · rw [hn] at hp
        cases hp
      · exact hc
    -- a new sequence or node id would have been saved
    have hkept : h.state.path.isSome → ∀ l,
        ((h.state.advance k t node).2.domain l).sequence = (h.state.domain l).sequence ∧
          ((h.state.advance k t node).2.domain l).node = (h.state.domain l).node := by
      intro hp l
      by_cases hl : l = k
      · subst hl
        have hd : (h.state.advance l t node).2.domain l = ((h.state.domain l).refresh t node).2 :=
          GeneratorState.domain_setDomain_self h.state _
        rw [hd]
        exact ⟨sequence_of_unchanged (hun hp), node_of_unchanged (hun hp)⟩
      · have hd : (h.state.advance k t node).2.domain l = h.state.domain l :=
          GeneratorState.domain_setDomain_of_ne h.state _ hl
        rw [hd]
        exact ⟨rfl, rfl⟩
    exact ⟨rfl, by cases k <;> rfl, by cases k <;> rfl, fun hp l => (hkept hp l).1,
      fun hp l => (hkept hp l).2⟩
  | save =>
    have hp : h.state.path = none := Option.map_eq_none_iff.1 hw
    have hs : h.step .save = h := by simp only [step, save, GeneratorState.save, hp]
    rw [hs]
    exact .of_domain rfl rfl rfl fun _ => rfl
  | node =>
    have hn : (h.state.nonVolatileNode h.entropy).2.1.path = h.state.path ∧
        (h.state.nonVolatileNode h.entropy).2.1.lastSave = h.state.lastSave := by
      unfold GeneratorState.nonVolatileNode
      split
      · exact ⟨rfl, rfl⟩
      · exact ⟨rfl, rfl⟩
    exact .of_domain rfl hn.1 hn.2 fun l => GeneratorState.domain_nonVolatileNode ..
  | listen l => exact .of_domain rfl rfl rfl fun k => GeneratorState.domain_listen ..
  | pass => exact .of_domain rfl rfl rfl fun _ => rfl
  | attach | reset | restart => cases he

/-! ## Tied to a file -/

/-- **A state is tied to a file** that has its sequences, or that cannot be read yet. -/
def Tied (p : String) (h : Host) : Prop :=
  match GeneratorState.loadRecord h.files p with
  | .ok r => h.state.path = some p ∧ h.state.Matches r
  | .error _ => h.state.path = none ∨ h.state.path = some p

theorem tied_of_ok {r : StateRecord} (hr : GeneratorState.loadRecord h.files p = .ok r)
    (hp : h.state.path = some p) (hm : h.state.Matches r) : Tied p h := by
  rw [Tied, hr]
  exact ⟨hp, hm⟩

theorem tied_of_error {x : StorageError} (hr : GeneratorState.loadRecord h.files p = .error x)
    (hp : h.state.path = none ∨ h.state.path = some p) : Tied p h := by
  rw [Tied, hr]
  exact hp

theorem Tied.path (ht : Tied p h) : h.state.path = none ∨ h.state.path = some p := by
  unfold Tied at ht
  split at ht
  · exact Or.inr ht.1
  · exact ht

theorem Tied.of_ok (ht : Tied p h) {r : StateRecord}
    (hr : GeneratorState.loadRecord h.files p = .ok r) :
    h.state.path = some p ∧ h.state.Matches r := by
  rwa [Tied, hr] at ht

/-- What a tied state writes is its own file. -/
theorem Tied.loadRecord_of_writes (ht : Tied p h) (hw : h.writes? e = some true) :
    (h.step e).state.path = some p ∧
      GeneratorState.loadRecord (h.step e).files p = .ok (h.step e).state.snapshot := by
  obtain ⟨q, hq, hq', -, hl⟩ := Host.loadRecord_of_writes hw
  obtain rfl : q = p := by
    rcases ht.path with hp | hp
    · rw [hp] at hq
      cases hq
    · rw [hp] at hq
      cases hq
      rfl
  exact ⟨hq', hl⟩

/-- **A state stays tied to its file**, as long as all writes succeed. -/
theorem tied_step (ht : Tied p h) (he : IsOwn p e) (hw : h.writes? e ≠ some false) :
    Tied p (h.step e) := by
  rcases he with he | rfl
  · cases hwr : h.writes? e with
    | some b =>
      obtain rfl : b = true := by simpa [hwr] using hw
      obtain ⟨hp, hl⟩ := ht.loadRecord_of_writes hwr
      exact tied_of_ok hl hp GeneratorState.matches_snapshot
    | none =>
      obtain ⟨hf, hpath, -, hs, -⟩ := step_of_writes_none he hwr
      cases hr : GeneratorState.loadRecord h.files p with
      | ok r =>
        obtain ⟨hp, hm⟩ := ht.of_ok hr
        exact tied_of_ok (hf ▸ hr) (hpath.trans hp) (hm.congr (hs (by rw [hp]; rfl)))
      | error x => exact tied_of_error (hf ▸ hr) (by rw [hpath]; exact ht.path)
  · -- a load gives the state the sequences of the file, which it had already
    have hf : (h.step (.attach (some p))).files = h.files := rfl
    cases hr : GeneratorState.loadRecord h.files p with
    | ok r =>
      obtain ⟨-, hm⟩ := ht.of_ok hr
      have hs := (attach_of_loadRecord hr).2
      refine tied_of_ok (hf ▸ hr) ?_ (hm.congr fun k => ?_)
      · rw [step, hs]
        rfl
      · rw [step, hs]
        exact (GeneratorState.domain_restore hm _ _ k).1
    | error x =>
      refine tied_of_error (hf ▸ hr) (Or.inr ?_)
      simp only [step, attach, GeneratorState.attach_of_error hr]
      rfl

end UuidForge.Host
