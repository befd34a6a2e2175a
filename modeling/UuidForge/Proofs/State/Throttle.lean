import UuidForge.Proofs.State.OwnFile

/-!
# The save throttle

A refresh that changes a sequence or a node id writes the file at once; one that only moves the
clock waits until a second has passed since the last save. A change of the path forgets the last
save, so the first refresh after it writes the file whatever was there.

* `Host.step_cases`: **an event writes the file, goes on with it as it is, or changes the path.**
* `Host.inStep_after`: while a save is remembered, the file reflects the state.
* `Host.written_of_lastSave`: a save that is remembered took place in the run.
* `Host.file_after_refresh`: **after a refresh the file reflects the state**, and its timestamp is
  up to date unless it was saved less than a second earlier.
-/

namespace UuidForge

namespace GeneratorState

/-- A record has the sequences and the hardware node id of a state. -/
structure Reflects (s : GeneratorState) (r : StateRecord) : Prop extends s.Matches r where
  node : r.physicalNode = s.physical.node

/-- The timestamp of a record is the later of the two last ones, and absent where neither domain
has one. -/
def UpToDate (s : GeneratorState) (r : StateRecord) : Prop :=
  r.timestamp = if max s.physical.last s.random.last = Ticks.never then none
    else some (max s.physical.last s.random.last)

variable {s s' : GeneratorState} {r : StateRecord}

theorem reflects_snapshot : s.Reflects s.snapshot := { matches_snapshot with node := rfl }

theorem upToDate_snapshot : s.UpToDate s.snapshot := rfl

theorem Reflects.congr (h : s.Reflects r)
    (hs : ∀ k, (s'.domain k).sequence = (s.domain k).sequence)
    (hn : ∀ k, (s'.domain k).node = (s.domain k).node) : s'.Reflects r := by
  have hp : s'.physical.node = s.physical.node := hn .physical
  exact { h.toMatches.congr hs with node := h.node.trans hp.symm }

end GeneratorState

namespace StateEvent

/-- An event that does not start the state over. -/
def goesOn : StateEvent → Bool
  | reset | restart _ => false
  | refresh .. | save | node | attach _ | listen _ | pass _ => true

/-- An event that has nothing to do with the file. -/
def isIdle : StateEvent → Bool
  | node | listen _ | pass _ => true
  | refresh .. | save | attach _ | reset | restart _ => false

end StateEvent

namespace Host

variable {h : Host} {e : StateEvent} {es : ℕ → StateEvent} {i m n : ℕ} {p : String}
  {k : ClockKind} {t : Ticks} {node : Option NodeId}

/-- A run up to event `n`: it begins without a save, its clock does not go back, all writes succeed
and nothing starts the state over. -/
structure WrittenRun (h : Host) (es : ℕ → StateEvent) (n : ℕ) : Prop where
  unsaved : h.state.lastSave = none
  goesOn : ∀ m < n, (es m).goesOn
  forward : ∀ m < n, (h.after es m).mono ≤ (h.after es (m + 1)).mono
  written : ∀ m < n, (h.after es m).writes? (es m) ≠ some false

theorem WrittenRun.mono (hr : WrittenRun h es n) (hm : m ≤ n) : WrittenRun h es m :=
  ⟨hr.unsaved, fun x hx => hr.goesOn x (by omega), fun x hx => hr.forward x (by omega),
    fun x hx => hr.written x (by omega)⟩

theorem WrittenRun.mono_le (hr : WrittenRun h es n) (him : i ≤ m) (hm : m ≤ n) :
    (h.after es i).mono ≤ (h.after es m).mono := by
  induction m, him using Nat.le_induction with
  | base => exact le_rfl
  | succ m him ih => exact Nat.le_trans (ih (by omega)) (hr.forward m (by omega))

theorem lastSave_attach (h : Host) (path : Option String) :
    (h.step (.attach path)).state.lastSave = none := by
  cases path with
  | none => rfl
  | some p =>
    cases hl : GeneratorState.loadRecord h.files p with
    | ok r =>
      rw [step, (attach_of_loadRecord hl).2]
      rfl
    | error x =>
      simp only [step, attach, GeneratorState.attach_of_error hl]
      rfl

/-- **An event writes the file, goes on with it as it is, or forgets the last save.** -/
theorem step_cases (he : e.goesOn) (hw : h.writes? e ≠ some false) :
    h.writes? e = some true ∨ Unwritten h (h.step e) ∨ (h.step e).state.lastSave = none := by
  have hsteady : e.isSteady → h.writes? e = some true ∨ Unwritten h (h.step e) := by
    intro hs
    cases hwr : h.writes? e with
    | some b =>
      obtain rfl : b = true := by simpa [hwr] using hw
      exact Or.inl rfl
    | none => exact Or.inr (step_of_writes_none hs hwr)
  cases e with
  | attach path => exact Or.inr (Or.inr (lastSave_attach h path))
  | refresh | save | node | listen | pass =>
    rcases hsteady rfl with hs | hs
    · exact Or.inl hs
    · exact Or.inr (Or.inl hs)
  | reset | restart => cases he

/-! ## While a save is remembered -/

/-- The file of a state reflects it, if a save is remembered. -/
def InStep (h : Host) : Prop :=
  ∀ p, h.state.path = some p → h.state.lastSave.isSome →
    ∃ r, GeneratorState.loadRecord h.files p = .ok r ∧ h.state.Reflects r

/-- **State and file stay in step.** -/
theorem inStep_step (hi : InStep h) (he : e.goesOn) (hw : h.writes? e ≠ some false) :
    InStep (h.step e) := by
  intro p hp hl
  rcases step_cases he hw with hs | hs | hs
  · obtain ⟨q, -, hq, -, hr⟩ := loadRecord_of_writes hs
    have hpq : q = p := Option.some.inj (hq.symm.trans hp)
    rw [hpq] at hr
    exact ⟨_, hr, GeneratorState.reflects_snapshot⟩
  · rw [hs.path] at hp
    rw [hs.lastSave] at hl
    obtain ⟨r, hr, hf⟩ := hi p hp hl
    have hsome : h.state.path.isSome := by rw [hp]; rfl
    exact ⟨r, hs.files ▸ hr, hf.congr (hs.sequence hsome) (hs.node hsome)⟩
  · rw [hs] at hl
    cases hl

theorem inStep_after (hr : WrittenRun h es n) : InStep (h.after es n) := by
  have hall : ∀ m ≤ n, InStep (h.after es m) := by
    intro m hm
    induction m with
    | zero =>
      intro p _ hl
      rw [after, hr.unsaved] at hl
      cases hl
    | succ m ih => exact inStep_step (ih (by omega)) (hr.goesOn m hm) (hr.written m hm)
  exact hall n le_rfl

/-- Event `i` saved the state to the file `p`. -/
def SavedAt (h : Host) (es : ℕ → StateEvent) (p : String) (i : ℕ) : Prop :=
  (h.after es i).state.path = some p ∧ (h.after es i).writes? (es i) = some true

/-- **A save that is remembered took place in the run**, and on the file of now. -/
theorem written_of_lastSave (hr : WrittenRun h es n) {last : Span}
    (hl : (h.after es n).state.lastSave = some last) (hp : (h.after es n).state.path = some p) :
    ∃ i < n, SavedAt h es p i ∧ (h.after es i).mono = last := by
  induction n with
  | zero =>
    rw [after, hr.unsaved] at hl
    cases hl
  | succ n ih =>
    rcases step_cases (hr.goesOn n (by omega)) (hr.written n (by omega)) with hs | hs | hs
    · obtain ⟨q, hq, hq', hm, -⟩ := loadRecord_of_writes hs
      have hpq : q = p := Option.some.inj (hq'.symm.trans hp)
      have hlast : (h.after es n).mono = last := Option.some.inj (hm.symm.trans hl)
      rw [hpq] at hq
      exact ⟨n, by omega, ⟨hq, hs⟩, hlast⟩
    · obtain ⟨i, hi, hsaved⟩ := ih (hr.mono (by omega)) (hs.lastSave ▸ hl) (hs.path ▸ hp)
      exact ⟨i, by omega, hsaved⟩
    · rw [after, hs] at hl
      cases hl

/-! ## Refreshes -/

/-- A refresh that writes nothing finds a save that is less than a second old. -/
theorem lastSave_of_not_written (hw : h.writes? (.refresh k t node) = none)
    (hp : h.state.path = some p) :
    ∃ last, h.state.lastSave = some last ∧ h.mono - last < GeneratorState.saveInterval := by
  rcases writes?_refresh_eq_none_iff.1 hw with hn | ⟨-, hlast⟩
  · rw [hp] at hn
    cases hn
  · exact hlast

/-- While nothing has to do with the file, a change of the path leaves no save to remember. -/
theorem lastSave_of_idle {path : Option String} (hi : i < n) (ha : es i = .attach path)
    (hidle : ∀ m, i < m → m < n → (es m).isIdle) : (h.after es n).state.lastSave = none := by
  induction n, hi using Nat.le_induction with
  | base =>
    rw [after, ha]
    exact lastSave_attach _ _
  | succ n hi ih =>
    have hn : (es n).isIdle := hidle n hi (by omega)
    have hsteady : (es n).isSteady := by
      cases he : es n <;> rw [he] at hn <;> first | rfl | cases hn
    have hw : (h.after es n).writes? (es n) = none := by
      cases he : es n <;> rw [he] at hn <;> first | rfl | cases hn
    rw [after, (step_of_writes_none hsteady hw).lastSave]
    exact ih fun m h1 h2 => hidle m h1 (by omega)

/-- The file `p` was saved before event `n`, less than a second ago. -/
def SavedLately (h : Host) (es : ℕ → StateEvent) (p : String) (n : ℕ) : Prop :=
  ∃ i < n, SavedAt h es p i ∧ (h.after es i).mono ≤ (h.after es n).mono ∧
    (h.after es n).mono - (h.after es i).mono < GeneratorState.saveInterval

theorem savedAt_of_writes (hw : (h.after es n).writes? (es n) = some true)
    (hp : (h.after es (n + 1)).state.path = some p) :
    SavedAt h es p n ∧ GeneratorState.loadRecord (h.after es (n + 1)).files p =
      .ok (h.after es (n + 1)).state.snapshot := by
  obtain ⟨q, hq, hq', -, hl⟩ := loadRecord_of_writes hw
  have hpq : q = p := Option.some.inj (hq'.symm.trans hp)
  rw [hpq] at hq hl
  exact ⟨⟨hq, hw⟩, hl⟩

/-- **The file after a refresh.** In every run whose writes succeed, a refresh that returns while a
path is set leaves a record there with the sequences and the hardware node id of the state. Its
timestamp is up to date as well, unless the file was saved less than a second earlier. The first
refresh after a change of the path writes the file. -/
theorem file_after_refresh (hr : WrittenRun h es (n + 1)) (hn : es n = .refresh k t node)
    (hp : (h.after es (n + 1)).state.path = some p) :
    (∃ r, GeneratorState.loadRecord (h.after es (n + 1)).files p = .ok r ∧
      (h.after es (n + 1)).state.Reflects r ∧
      ((h.after es (n + 1)).state.UpToDate r ∨ SavedLately h es p n)) ∧
    ∀ i < n, ∀ path, es i = .attach path → (∀ m, i < m → m < n → (es m).isIdle) →
      SavedAt h es p n ∧ GeneratorState.loadRecord (h.after es (n + 1)).files p =
        .ok (h.after es (n + 1)).state.snapshot := by
  have hnf := hr.written n (Nat.lt_succ_self n)
  cases hw : (h.after es n).writes? (es n) with
  | some b =>
    obtain rfl : b = true := by simpa [hw] using hnf
    obtain ⟨hsaved, hl⟩ := savedAt_of_writes hw hp
    exact ⟨⟨_, hl, GeneratorState.reflects_snapshot, Or.inl GeneratorState.upToDate_snapshot⟩,
      fun _ _ _ _ _ => ⟨hsaved, hl⟩⟩
  | none =>
    -- the refresh goes on with a file that is in step, and the save that it remembers is recent
    have hun := step_of_writes_none (by rw [hn]; rfl) hw
    have hpn : (h.after es n).state.path = some p := hun.path.symm.trans hp
    rw [hn] at hw
    obtain ⟨last, hlast, hlt⟩ := lastSave_of_not_written hw hpn
    refine ⟨?_, fun i hi path ha hidle => ?_⟩
    · have hsome : (h.after es (n + 1)).state.lastSave.isSome := by
        rw [after, hun.lastSave, hlast]
        rfl
      obtain ⟨r, hl, hf⟩ := inStep_after hr p hp hsome
      obtain ⟨i, hi, hsaved, hm⟩ := written_of_lastSave (hr.mono (Nat.le_succ n)) hlast hpn
      refine ⟨r, hl, hf, Or.inr ⟨i, hi, hsaved, hr.mono_le (by omega) (by omega), ?_⟩⟩
      rw [hm]
      exact hlt
    · rw [lastSave_of_idle hi ha hidle] at hlast
      cases hlast

/-! ## A throttled refresh -/

/-- A host with a new state. -/
def unsaved : Host := start (.ofScript #[]) 0 none 0

/-- The file is not there when the path is set. The first refresh makes it, the second comes half a
second later. -/
def throttled (n : ℕ) : StateEvent :=
  [.attach (some "state.bin"), .refresh .physical 1000 (some 1), .pass 500000000,
    .refresh .physical 2000 (some 1)].getD n .node

theorem writtenRun_throttled : WrittenRun unsaved throttled 4 :=
  ⟨rfl, by decide, by decide, by decide⟩

/-- The second refresh leaves the timestamp of the first one in the file. -/
theorem file_after_refresh_throttled :
    SavedAt unsaved throttled "state.bin" 1 ∧
      ∃ r, GeneratorState.loadRecord (unsaved.after throttled 4).files "state.bin" = .ok r ∧
        (unsaved.after throttled 4).state.Reflects r ∧ r.timestamp = some 1000 ∧
        SavedLately unsaved throttled "state.bin" 3 := by
  have h1 := (file_after_refresh (writtenRun_throttled.mono (by decide : 2 ≤ 4)) rfl
    (by decide : (unsaved.after throttled 2).state.path = some "state.bin")).2 0 (by decide) _ rfl
      (fun m h1 h2 => absurd h1 (by omega))
  obtain ⟨⟨r, hl, hf, hu⟩, -⟩ := file_after_refresh writtenRun_throttled rfl
    (by decide : (unsaved.after throttled 4).state.path = some "state.bin")
  have hfile : (GeneratorState.loadRecord (unsaved.after throttled 4).files "state.bin").map
      StateRecord.timestamp = .ok (some 1000) := by decide
  rw [hl] at hfile
  have ht : r.timestamp = some 1000 := Except.ok.inj hfile
  refine ⟨h1.1, r, hl, hf, ht, hu.resolve_left fun hup => ?_⟩
  rw [GeneratorState.UpToDate, ht] at hup
  exact absurd hup (by decide)

end Host

end UuidForge
