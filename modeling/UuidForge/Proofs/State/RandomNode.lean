import UuidForge.Proofs.State.OwnFile

/-!
# The random node id and the file

The random node id of a state is drawn when it is first asked for, and that is no refresh, so it
writes nothing. The file gets the node id with the next save, whatever makes that save due, or when
the state ends.

* `GeneratorState.handsOn_iff`: a file hands on the node id in its record, and no other.
* `Host.randomNode_step`: refreshes and saves keep the random node id.
* `Host.handsOn_of_written`: **a save hands on the random node id.**
* `Host.node_survives_iff`: **a node id that was asked for is in the file exactly if it was there
  before, or the file was written since.**
-/

namespace UuidForge

namespace GeneratorState

variable {files : FileTree} {path : String} {r : StateRecord} {n : NodeId}

/-- The random node id of a new state that is attached to a file. -/
def nodeFrom (files : FileTree) (path : String) (e : Entropy) : NodeId :=
  let (s, e) := create e
  let (_, s, e) := s.attach (some path) files e
  (s.nonVolatileNode e).1

/-- **A file hands on a node id**: every new state that is attached to it has this random node id,
whatever it might have drawn. -/
def HandsOn (files : FileTree) (path : String) (n : NodeId) : Prop :=
  ∀ e, nodeFrom files path e = n

/-- A load goes on in the stream where it left off. -/
theorem restoredSequence_snd (sequence : Option (BitVec 16)) (e : Entropy) :
    ∃ k, (restoredSequence sequence e).2 = { e with drawn := k } := by
  cases sequence with
  | none => exact ⟨_, rfl⟩
  | some x => exact ⟨_, rfl⟩

theorem restore_snd (s : GeneratorState) (r : StateRecord) (e : Entropy) :
    ∃ k, (s.restore r e).2 = { e with drawn := k } := by
  obtain ⟨i, hi⟩ := restoredSequence_snd r.physicalSequence e
  obtain ⟨j, hj⟩ := restoredSequence_snd r.randomSequence (restoredSequence r.physicalSequence e).2
  refine ⟨j, hj.trans ?_⟩
  rw [hi]

theorem nodeFrom_of_node (hl : loadRecord files path = .ok r) (hr : r.randomNode = some n)
    (e : Entropy) : nodeFrom files path e = n := by
  simp only [nodeFrom, attach, hl, restore, nonVolatileNode, hr]

/-- Without a node id in the file, one is drawn from the stream. -/
theorem nodeFrom_of_no_node (hn : ∀ r, loadRecord files path = .ok r → r.randomNode = none)
    (e : Entropy) : ∃ k, nodeFrom files path e = (Entropy.drawNode { e with drawn := k }).1 := by
  cases hl : loadRecord files path with
  | error x =>
    refine ⟨e.drawn + 2 + 2, ?_⟩
    simp only [nodeFrom, attach, hl]
    rfl
  | ok r =>
    obtain ⟨k, hk⟩ := restore_snd { (create e).1 with path := some path, lastSave := none } r
      (create e).2
    refine ⟨k, ?_⟩
    have hr : ({ (create e).1 with path := some path, lastSave := none }.restore r
        (create e).2).1.randomNode = none := hn r hl
    simp only [nodeFrom, attach, hl, nonVolatileNode, hr]
    rw [hk]
    rfl

/-- A stream that repeats one octet gives one node id over and over. -/
theorem drawNode_const (x : UInt8) (k : Nat) :
    (Entropy.drawNode { stream := fun _ => x, drawn := k }).1 =
      (NodeId.ofOctets (List.replicate 6 x)).asRandom := rfl

/-- **A file hands on the node id in its record, and no other.** -/
theorem handsOn_iff :
    HandsOn files path n ↔ ∃ r, loadRecord files path = .ok r ∧ r.randomNode = some n := by
  constructor
  · intro h
    by_contra hno
    have hnone : ∀ r, loadRecord files path = .ok r → r.randomNode = none := by
      intro r hl
      cases hr : r.randomNode with
      | none => rfl
      | some m =>
        have hm : m = n := (nodeFrom_of_node hl hr ⟨fun _ => 0, 0⟩).symm.trans (h _)
        exact absurd ⟨r, hl, hm ▸ hr⟩ hno
    -- two streams give different node ids, and only one of them is `n`
    obtain ⟨i, hi⟩ := nodeFrom_of_no_node hnone ⟨fun _ => 0, 0⟩
    obtain ⟨j, hj⟩ := nodeFrom_of_no_node hnone ⟨fun _ => 2, 0⟩
    rw [h, drawNode_const] at hi hj
    exact absurd (hi.symm.trans hj) (by decide)
  · rintro ⟨r, hl, hr⟩ e
    exact nodeFrom_of_node hl hr e

/-- **A snapshot has the random node id of the state.** -/
theorem randomNode_snapshot {s : GeneratorState} (hs : s.randomNode = some n) :
    s.snapshot.randomNode = some n := by
  rw [snapshot, hs]
  rfl

@[simp] theorem randomNode_save (s : GeneratorState) (now : Span) (files : FileTree) :
    (s.save now files).2.1.randomNode = s.randomNode := by
  unfold save
  split
  · rfl
  · simp only
    split <;> rfl

theorem randomNode_refresh (s : GeneratorState) (k : ClockKind) (t : Ticks) (node : Option NodeId)
    (now : Span) (files : FileTree) :
    (s.refresh k t node now files).2.1.randomNode = s.randomNode := by
  have ha : (s.advance k t node).2.randomNode = s.randomNode := by cases k <;> rfl
  rcases s.refresh_cases t node now files with h | h
  · rw [h, ha]
  · rw [h, randomNode_save, ha]

theorem randomNode_nonVolatileNode (s : GeneratorState) (e : Entropy) :
    (s.nonVolatileNode e).2.1.randomNode = some (s.nonVolatileNode e).1 := by
  unfold nonVolatileNode
  split
  · assumption
  · rfl

theorem nonVolatileNode_of_some {s : GeneratorState} (hs : s.randomNode = some n) (e : Entropy) :
    s.nonVolatileNode e = (n, s, e) := by
  rw [nonVolatileNode, hs]

end GeneratorState

namespace Host

open GeneratorState (HandsOn)

variable {h : Host} {e : StateEvent} {es : ℕ → StateEvent} {m n : ℕ} {p : String} {x : NodeId}

/-- **A random node id stays** until a file is loaded or the state starts over. -/
theorem randomNode_step (he : e.isSteady) (hx : h.state.randomNode = some x) :
    (h.step e).state.randomNode = some x := by
  cases e with
  | refresh k t node => exact (GeneratorState.randomNode_refresh ..).trans hx
  | save => exact (GeneratorState.randomNode_save ..).trans hx
  | node =>
    show (h.state.nonVolatileNode h.entropy).2.1.randomNode = some x
    rw [GeneratorState.nonVolatileNode_of_some hx]
    exact hx
  | listen | pass => exact hx
  | attach | reset | restart => cases he

/-- **A save hands on the random node id.** -/
theorem handsOn_of_written (he : e.isSteady) (hx : h.state.randomNode = some x)
    (hp : h.state.path = some p) (hw : h.writes? e = some true) :
    HandsOn (h.step e).files p x := by
  obtain ⟨q, hq, -, -, hl⟩ := loadRecord_of_writes hw
  have hqp : q = p := Option.some.inj (hq.symm.trans hp)
  rw [hqp] at hl
  exact GeneratorState.handsOn_iff.2
    ⟨_, hl, GeneratorState.randomNode_snapshot (randomNode_step he hx)⟩

/-- A state that ends well hands on its random node id. -/
theorem handsOn_of_endsWell {ending : Ending} (he : h.endsWell ending)
    (hx : h.state.randomNode = some x) (hp : h.state.path = some p) :
    HandsOn (h.renewed ending).files p x := by
  obtain ⟨q, hq, hl⟩ := loadRecord_of_endsWell he
  have hqp : q = p := Option.some.inj (hq.symm.trans hp)
  rw [hqp] at hl
  exact GeneratorState.handsOn_iff.2 ⟨_, hl, GeneratorState.randomNode_snapshot hx⟩

/-- A steady event keeps the path. -/
theorem path_step (he : e.isSteady) (hw : h.writes? e ≠ some false)
    (hp : h.state.path = some p) : (h.step e).state.path = some p := by
  cases hwr : h.writes? e with
  | none => exact (step_of_writes_none he hwr).path.trans hp
  | some b =>
    obtain rfl : b = true := by simpa [hwr] using hw
    obtain ⟨q, hq, hq', -⟩ := loadRecord_of_writes hwr
    rw [hq', ← hq, hp]

/-- The random node id was asked for at event `m` of a run, and since then the state has only been
refreshed and saved, with success. -/
structure AskedAt (h : Host) (es : ℕ → StateEvent) (p : String) (m n : ℕ) : Prop where
  asked : es m = .node
  path : (h.after es m).state.path = some p
  later : m < n
  steady : ∀ i, m < i → i < n → (es i).isSteady
  written : ∀ i, m < i → i < n → (h.after es i).writes? (es i) ≠ some false

theorem AskedAt.mono {l : ℕ} (ha : AskedAt h es p m n) (hl : m < l) (hln : l ≤ n) :
    AskedAt h es p m l where
  asked := ha.asked
  path := ha.path
  later := hl
  steady i h1 h2 := ha.steady i h1 (h2.trans_le hln)
  written i h1 h2 := ha.written i h1 (h2.trans_le hln)

/-- The node id that event `m` hands out. -/
def nodeAt (h : Host) (es : ℕ → StateEvent) (m : ℕ) : NodeId := (nonVolatileNode (h.after es m)).1

/-- The state has kept its path and its random node id, and the file hands it on as soon as it was
written. -/
theorem kept_of_askedAt (ha : AskedAt h es p m n) :
    (h.after es n).state.path = some p ∧
      (h.after es n).state.randomNode = some (h.nodeAt es m) ∧
      (HandsOn (h.after es n).files p (h.nodeAt es m) ↔
        HandsOn (h.after es m).files p (h.nodeAt es m) ∨
          ∃ i, m < i ∧ i < n ∧ (h.after es i).writes? (es i) = some true) := by
  obtain ⟨hm, hp, hmn, hs, hw⟩ := ha
  -- on the events after the one that asks, whose own step moves no file
  induction n, hmn using Nat.le_induction with
  | base =>
    rw [after, hm]
    have hun := step_of_writes_none (h := h.after es m) (e := .node) rfl rfl
    refine ⟨hun.path.trans hp, GeneratorState.randomNode_nonVolatileNode .., ?_⟩
    rw [hun.files]
    constructor
    · exact Or.inl
    · rintro (hf | ⟨i, h1, h2, -⟩)
      · exact hf
      · omega
  | succ n hmn ih =>
    obtain ⟨ihp, ihx, ihf⟩ := ih (fun i h1 h2 => hs i h1 (by omega))
      (fun i h1 h2 => hw i h1 (by omega))
    have hsn := hs n hmn (Nat.lt_succ_self n)
    have hwn := hw n hmn (Nat.lt_succ_self n)
    refine ⟨path_step hsn hwn ihp, randomNode_step hsn ihx, ?_⟩
    cases hwr : (h.after es n).writes? (es n) with
    | some b =>
      obtain rfl : b = true := by simpa [hwr] using hwn
      exact ⟨fun _ => Or.inr ⟨n, hmn, Nat.lt_succ_self n, hwr⟩,
        fun _ => handsOn_of_written hsn ihx ihp hwr⟩
    | none =>
      rw [after, (step_of_writes_none hsn hwr).files, ihf]
      refine or_congr_right ⟨?_, ?_⟩
      · rintro ⟨i, h1, h2, hi⟩
        exact ⟨i, h1, by omega, hi⟩
      · rintro ⟨i, h1, h2, hi⟩
        rcases Nat.lt_succ_iff_lt_or_eq.1 h2 with h2 | rfl
        · exact ⟨i, h1, h2, hi⟩
        · rw [hwr] at hi
          cases hi

/-- **When the random node id survives.** In every run in which it was asked for while a path was
set, and the state was only refreshed and saved since, with success: a new state that loads the file
has the same random node id exactly if the file handed it on before, or was written since. A state
that ends with a save or is dropped leaves it in the file in any case. -/
theorem node_survives_iff (ha : AskedAt h es p m n) :
    (HandsOn (h.after es n).files p (h.nodeAt es m) ↔
      HandsOn (h.after es m).files p (h.nodeAt es m) ∨
        ∃ i, m < i ∧ i < n ∧ (h.after es i).writes? (es i) = some true) ∧
    ∀ ending, (h.after es n).endsWell ending →
      HandsOn ((h.after es n).renewed ending).files p (h.nodeAt es m) := by
  obtain ⟨hp, hx, hf⟩ := kept_of_askedAt ha
  exact ⟨hf, fun ending he => handsOn_of_endsWell he hx hp⟩

/-! ## A node id that is not in the file yet -/

/-- A host whose entropy counts up. -/
def counting : Host :=
  start (.ofScript #[0, 1, 0, 2, 10, 11, 12, 13, 14, 15, 16, 17, 18, 19]) 0 none 0

/-- The first refresh makes the file. Then the random node id is asked for, the hardware domain goes
on less than a second later, and the state is saved. -/
def drawing (n : ℕ) : StateEvent :=
  [.attach (some "state.bin"), .refresh .physical 1000 (some 0x010101010101), .node,
    .refresh .physical 2000 (some 0x010101010101), .save].getD n .node

theorem drawing_askedAt : AskedAt counting drawing "state.bin" 2 5 := by
  have hs : ∀ i < 5, 2 < i → (drawing i).isSteady := by decide
  have hw : ∀ i < 5, 2 < i → (counting.after drawing i).writes? (drawing i) ≠ some false := by
    decide
  exact ⟨rfl, by decide, by decide, fun i h1 h2 => hs i h2 h1, fun i h1 h2 => hw i h2 h1⟩

/-- The file is there, and a new state loads it with another random node id. -/
theorem node_lost_drawing :
    AskedAt counting drawing "state.bin" 2 4 ∧
      (GeneratorState.loadRecord (counting.after drawing 4).files "state.bin").isOk ∧
      GeneratorState.nodeFrom (counting.after drawing 4).files "state.bin" counting.entropy ≠
        counting.nodeAt drawing 2 :=
  ⟨drawing_askedAt.mono (by decide) (by decide), by decide, by decide⟩

/-- The save puts the node id into the file. -/
theorem node_survives_iff_drawing :
    ¬ HandsOn (counting.after drawing 4).files "state.bin" (counting.nodeAt drawing 2) ∧
      HandsOn (counting.after drawing 5).files "state.bin" (counting.nodeAt drawing 2) := by
  have ha : AskedAt counting drawing "state.bin" 2 4 :=
    drawing_askedAt.mono (by decide) (by decide)
  have hlost : ¬ HandsOn (counting.after drawing 2).files "state.bin"
      (counting.nodeAt drawing 2) := by
    intro hn
    obtain ⟨r, hl, hr⟩ := GeneratorState.handsOn_iff.1 hn
    have hnone : (GeneratorState.loadRecord (counting.after drawing 2).files
        "state.bin").toOption.map StateRecord.randomNode = some none := by decide
    rw [hl, Except.toOption, Option.map_some, hr] at hnone
    cases hnone
  refine ⟨fun hn => ?_, (node_survives_iff drawing_askedAt).1.2 (Or.inr ⟨4, ?_⟩)⟩
  · have hw : ∀ i < 4, 2 < i → (counting.after drawing i).writes? (drawing i) = none := by decide
    rcases (node_survives_iff ha).1.1 hn with hn | ⟨i, h1, h2, hi⟩
    · exact hlost hn
    · rw [hw i h2 h1] at hi
      cases hi
  · decide

end Host

end UuidForge
