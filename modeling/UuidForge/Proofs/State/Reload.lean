import UuidForge.Proofs.State.RoundTrip
import UuidForge.Proofs.State.Storage

/-!
# Loads and saves without generation

A state has two clocks and a random node id, its file one timestamp and one random node id for both.
So a state that is loaded differs from the one that was saved. Its snapshot does not: what a save
writes is loaded and saved again as it is, for good.

* `StateRecord.Settled`: a record that a state takes over as it is.
* `GeneratorState.snapshot_restore`: **the snapshot of a state that was loaded is the record.**
* `GeneratorState.reload_of_saved`: a cycle of a load and a save leaves a saved file alone.
* `GeneratorState.no_drift`: **any number of cycles leaves the octets of a file as they are**, and a
  file of another writer has the same record after one.
-/

namespace UuidForge

/-- **A record that a state takes over as it is**: both sequences are there, in 14 bits, and no time
that stands for "never". -/
structure StateRecord.Settled (r : StateRecord) : Prop where
  physical : r.physicalSequence.isSome
  random : r.randomSequence.isSome
  masked : r.masked = r
  time : r.timestamp ≠ some Ticks.never

namespace GeneratorState

variable {s : GeneratorState} {r : StateRecord} {files files' : FileTree} {path : String}

theorem settled_snapshot (s : GeneratorState) : s.snapshot.Settled where
  physical := rfl
  random := rfl
  masked := s.masked_snapshot
  time := by
    show s.lastTimestamp? ≠ some Ticks.never
    unfold lastTimestamp?
    dsimp only
    generalize (if s.physical.last ≤ s.random.last then s.random.last else s.physical.last) = t
    split
    · exact nofun
    · rename_i hne
      exact fun he => hne (Option.some.inj he)

/-- A sequence of 14 bits is restored without drawing. -/
theorem restoredSequence_of_isSome {sequence : Option (BitVec 16)}
    (hs : sequence.isSome) (hm : sequence.map (fun n => (n.setWidth 14).setWidth 16) = sequence)
    (e : Entropy) : (restoredSequence sequence e).2 = e ∧
      some ((restoredSequence sequence e).1.setWidth 16) = sequence := by
  obtain ⟨n, rfl⟩ := Option.isSome_iff_exists.1 hs
  exact ⟨rfl, hm⟩

/-- Where both clocks stand at one time, it is the latest, unless it stands for "never". -/
theorem lastTimestamp?_of_last {t : Option Ticks} (ht : t ≠ some Ticks.never)
    (h : ∀ k, (s.domain k).last = t.getD Ticks.never) : s.lastTimestamp? = t := by
  have hp : s.physical.last = t.getD Ticks.never := h .physical
  have hr : s.random.last = t.getD Ticks.never := h .random
  unfold lastTimestamp?
  dsimp only
  rw [hp, hr, ite_self]
  cases t with
  | none => rfl
  | some t => exact if_neg fun he => ht (congrArg some he)

/-- **The snapshot of a state that was loaded is the record**, whatever the state was before, and
the load draws nothing. -/
theorem snapshot_restore (hr : r.Settled) (s : GeneratorState) (e : Entropy) :
    (s.restore r e).1.snapshot = r ∧ (s.restore r e).2 = e := by
  obtain ⟨hp, hq, hm, ht⟩ := hr
  obtain ⟨hpe, hps⟩ :=
    restoredSequence_of_isSome hp (congrArg StateRecord.physicalSequence hm) e
  obtain ⟨hqe, hqs⟩ := restoredSequence_of_isSome hq (congrArg StateRecord.randomSequence hm) e
  have htime : (s.restore r e).1.lastTimestamp? = r.timestamp :=
    lastTimestamp?_of_last ht fun k => by cases k <;> rfl
  constructor
  · rw [snapshot, htime]
    simp only [restore, hpe, hps, hqs]
    cases r with
    | mk t p q m n => cases n <;> rfl
  · simp only [restore, hpe, hqe]

/-! ## Cycles -/

/-- Who loads a file next and is saved: a state, whatever it was before, with entropy and the
monotonic time of the save. -/
structure Successor where
  state : GeneratorState
  entropy : Entropy
  now : Span

/-- The state of a successor that is attached to a file. -/
def Successor.attached (c : Successor) (path : String) (files : FileTree) :
    Bool × GeneratorState × Entropy :=
  c.state.attach (some path) files c.entropy

/-- What its save gives. -/
def Successor.saved (c : Successor) (path : String) (files : FileTree) :
    Bool × GeneratorState × FileTree :=
  (c.attached path files).2.1.save c.now files

/-- The files after a cycle of a load and a save. -/
def reload (path : String) (files : FileTree) (c : Successor) : FileTree :=
  (c.saved path files).2.2

/-- A save stores the snapshot. -/
theorem save_eq (hp : s.path = some path) (now : Span) (files : FileTree) :
    (s.save now files).1 = (storeRecord files path s.snapshot).1 ∧
      (s.save now files).2.2 = (storeRecord files path s.snapshot).2 := by
  simp only [save, hp, and_self]

/-- **A settled record is loaded without drawing**, and the save that follows stores it again. -/
theorem saved_of_settled (hl : loadRecord files path = .ok r) (hr : r.Settled) (c : Successor) :
    (c.attached path files).1 = true ∧ (c.attached path files).2.2 = c.entropy ∧
      (c.saved path files).1 = (storeRecord files path r).1 ∧
      reload path files c = (storeRecord files path r).2 := by
  have ha := attach_of_ok hl c.state c.entropy
  obtain ⟨hs, he⟩ :=
    snapshot_restore hr { c.state with path := some path, lastSave := none } c.entropy
  have hp : (c.attached path files).2.1.path = some path := by
    rw [Successor.attached, ha]
    rfl
  obtain ⟨h1, h2⟩ := save_eq hp c.now files
  rw [reload, Successor.saved, h1, h2, Successor.attached, ha, hs]
  exact ⟨rfl, he, rfl, rfl⟩

/-- A record that was stored is stored again without any change. -/
theorem storeRecord_again (h : storeRecord files path r = (true, files')) :
    storeRecord files' path r = (true, files') :=
  FileTree.store_again h

/-- A record that cannot be stored leaves the one that is there. -/
theorem loadRecord_of_not_stored {r' : StateRecord}
    (h : storeRecord files path r' = (false, files')) (hl : loadRecord files path = .ok r) :
    loadRecord files' path = .ok r := by
  unfold loadRecord at hl ⊢
  cases hf : files.load (.ofString path) with
  | ok xs =>
    rw [hf] at hl
    rw [FileTree.load_of_store_false h hf]
    exact hl
  | error x =>
    rw [hf] at hl
    cases x <;> cases hl

/-- **A cycle leaves a file alone that a save has written**, and so does every other one after
it. -/
theorem reload_of_saved (h : storeRecord files path r = (true, files')) (hr : r.Settled)
    (c : Successor) : reload path files' c = files' := by
  have hl := loadRecord_of_storeRecord h
  rw [hr.masked] at hl
  rw [(saved_of_settled hl hr c).2.2.2, storeRecord_again h]

theorem foldl_reload_of_saved (h : storeRecord files path r = (true, files')) (hr : r.Settled)
    (cs : List Successor) : cs.foldl (reload path) files' = files' := by
  induction cs with
  | nil => rfl
  | cons c cs ih => rw [List.foldl_cons, reload_of_saved h hr c, ih]

/-- **Loads and saves do not drift.** Whatever a state is, if it is saved to a file, the file has
the 32 octets of its snapshot, and any number of cycles leaves all files as they are: each load
succeeds and draws nothing, and each save succeeds. A file of another writer that has both
sequences, and no time that stands for "never", is loaded without drawing, and has the same record
after the save; if the save succeeds, in 32 octets of its own. -/
theorem no_drift :
    (∀ (s : GeneratorState) (path : String) (now : Span) (files files' : FileTree),
      s.path = some path → (s.save now files).1 = true → (s.save now files).2.2 = files' →
      s.snapshot.encode.length = 32 ∧ files'.load (.ofString path) = .ok s.snapshot.encode ∧
      ∀ cs : List Successor, cs.foldl (reload path) files' = files' ∧
        ∀ c ∈ cs, (c.attached path files').1 = true ∧ (c.attached path files').2.2 = c.entropy ∧
          (c.saved path files').1 = true) ∧
    ∀ (files : FileTree) (path : String) (r : StateRecord), loadRecord files path = .ok r →
      r.physicalSequence.isSome → r.randomSequence.isSome → r.timestamp ≠ some Ticks.never →
      ∀ c : Successor, (c.attached path files).1 = true ∧
        (c.attached path files).2.2 = c.entropy ∧
        loadRecord (reload path files c) path = .ok r ∧
        ((c.saved path files).1 = true →
          (reload path files c).load (.ofString path) = .ok r.encode) := by
  constructor
  · intro s path now files files' hp hw hf
    obtain ⟨h1, h2⟩ := save_eq hp now files
    have hst : storeRecord files path s.snapshot = (true, files') :=
      Prod.ext (h1.symm.trans hw) (h2.symm.trans hf)
    have hl : loadRecord files' path = .ok s.snapshot := by
      rw [loadRecord_of_storeRecord hst, s.masked_snapshot]
    refine ⟨s.snapshot.length_encode, FileTree.load_store hst, fun cs =>
      ⟨foldl_reload_of_saved hst s.settled_snapshot cs, fun c _ => ?_⟩⟩
    obtain ⟨ha, he, hs, -⟩ := saved_of_settled hl s.settled_snapshot c
    exact ⟨ha, he, by rw [hs, storeRecord_again hst]⟩
  · intro files path r hl hp hq ht c
    have hr : r.Settled := ⟨hp, hq, masked_of_loadRecord hl, ht⟩
    obtain ⟨ha, he, hs, hf⟩ := saved_of_settled hl hr c
    refine ⟨ha, he, ?_⟩
    rw [hs, hf]
    -- a save that is refused leaves the file as it was
    cases hst : storeRecord files path r with
    | mk written files' =>
      cases written with
      | true => exact ⟨by rw [loadRecord_of_storeRecord hst, hr.masked], fun _ =>
          FileTree.load_store hst⟩
      | false => exact ⟨loadRecord_of_not_stored hst hl, nofun⟩

/-! ## A state and its successors -/

/-- A state with one clock ahead, and a node id in its random domain only. -/
def uneven : GeneratorState :=
  { physical := { last := 5, sequence := 3, node := some 1 }
    random := { last := Ticks.never, sequence := 0x3fff, node := some 2 }
    path := some "state.bin" }

/-- A new state with entropy of zeros. -/
def successor : Successor where
  state := (create (.ofScript #[])).1
  entropy := .ofScript #[]
  now := 0

/-- A tree with the file of another writer. -/
def foreignFile : FileTree := { entries := [(["state.bin"], .file StateRecord.foreign)] }

/-- The clocks and the node ids of the successor are not those of the state, and the file stays. A
file of another writer is written anew and keeps its record. -/
theorem no_drift_uneven :
    (successor.attached "state.bin" (uneven.save 0 {}).2.2).2.1.random.last ≠ uneven.random.last ∧
      (successor.attached "state.bin" (uneven.save 0 {}).2.2).2.1.randomNode ≠
        uneven.randomNode ∧
      [successor, successor].foldl (reload "state.bin") (uneven.save 0 {}).2.2 =
        (uneven.save 0 {}).2.2 ∧
      reload "state.bin" foreignFile successor ≠ foreignFile ∧
      loadRecord (reload "state.bin" foreignFile successor) "state.bin" =
        .ok { timestamp := some 7, physicalSequence := some 42, randomSequence := some 42 } := by
  have h := (no_drift.1 uneven "state.bin" 0 {} _ rfl (by decide) rfl).2.2 [successor, successor]
  have hl : loadRecord foreignFile "state.bin" =
      .ok { timestamp := some 7, physicalSequence := some 42, randomSequence := some 42 } := by
    decide
  have hf := no_drift.2 foreignFile "state.bin" _ hl rfl rfl (by decide) successor
  exact ⟨by decide, by decide, h.1, by decide, hf.2.2.1⟩

end GeneratorState

end UuidForge
