import Mathlib.Data.Nat.Count
import UuidForge.Proofs.Custom.Example

/-!
# The sequence of the example layout

The example layout is called again and again, and some calls fail. It works in place: what a call
has stored before it fails stays stored, both in the sequence and in the UUID handed in. So it
matters that all checks come first.

* `ExampleLayout.fillInPlace`: the layout, store by store.
* `ExampleLayout.fill_eq_call`: what a call leaves behind is what the layout gives back.
* `ExampleLayout.sequenceAt_eq`: **the sequence counts the calls that succeed.**
* `ExampleLayout.failures_take_no_number`: **which calls fail**, that they change nothing, and which
  number each of the others writes.
-/

namespace UuidForge

namespace ExampleLayout

/-! ## A call in place -/

/-- What a call can write to: the sequence and the UUID handed in. -/
structure Draft where
  sequence : BitVec 8
  uuid : Uuid
  deriving DecidableEq, Repr

/-- A step that reads and writes a draft, and may fail. -/
abbrev OnDraft (α : Type) := ExceptT Error (StateM Draft) α

/-- Moves the sequence on. -/
def nextNumber : OnDraft (BitVec 8) :=
  modifyGet fun d => (d.sequence + 1, { d with sequence := d.sequence + 1 })

/-- Stores a value in a slice of the UUID. -/
def store (s : Slice) (v : BitVec s.width) : OnDraft Unit :=
  modify fun d => { d with uuid := s.write d.uuid v }

/-- **The layout, store by store.** -/
def fillInPlace (c : FillContext) : OnDraft Unit := do
  let seconds := c.time.toInt / 10000000
  unless 0 ≤ seconds ∧ seconds < 0x100000000 do
    throw outOfRange
  let fraction := (c.time.toInt % 10000000).toNat * 65536 / 10000000
  let node ← c.nodeId
  let sequence ← nextNumber
  store Slice.timeLow (BitVec.ofInt 32 seconds)
  store Slice.timeMid (BitVec.ofNat 16 fraction)
  store nodeOctet (node.octet 4)
  store sequenceOctet sequence

/-- A call for a draft: what comes of it, and the draft that it leaves behind. -/
def call (c : FillContext) (d : Draft) : Except Error Unit × Draft := (fillInPlace c).run.run d

/-- **A call in closed form.** A call that fails has stored nothing. -/
theorem call_eq (c : FillContext) (d : Draft) : call c d =
    if Reaches c.time then
      match c.node with
      | some node => (.ok (), ⟨d.sequence + 1, layOut c.time node (d.sequence + 1) d.uuid⟩)
      | none => (.error (.notSupported .nodeId), d)
    else (.error outOfRange, d) := by
  have hrange : 0 ≤ c.time.toInt / 10000000 ∧ c.time.toInt / 10000000 < 0x100000000 ↔
      Reaches c.time := seconds_range_iff c.time
  unfold call fillInPlace
  dsimp only
  by_cases h : Reaches c.time
  · rw [if_pos (hrange.2 h), if_pos h]
    unfold FillContext.nodeId
    cases c.node with
    | some node => rfl
    | none => rfl
  · rw [if_neg (mt hrange.1 h), if_neg h]
    rfl

/-- **What a call leaves behind is what the layout gives back.** -/
theorem fill_eq_call (c : FillContext) (d : Draft) : fill c d.sequence d.uuid =
    ((call c d).1.map fun _ => (call c d).2.uuid, (call c d).2.sequence) := by
  rw [fill_eq, call_eq]
  by_cases h : Reaches c.time
  · rw [if_pos h, if_pos h]
    cases c.node with
    | some node => rfl
    | none => rfl
  · rw [if_neg h, if_neg h]
    rfl

/-! ## A run of calls -/

/-- The sequence before call `n`. Every call has a UUID of its own to fill. -/
def sequenceAt (calls : ℕ → FillContext × Uuid) : ℕ → BitVec 8
  | 0 => 0xff
  | n + 1 => (call (calls n).1 ⟨sequenceAt calls n, (calls n).2⟩).2.sequence

/-- What comes of call `n`, and the draft that it leaves behind. -/
def outcome (calls : ℕ → FillContext × Uuid) (n : ℕ) : Except Error Unit × Draft :=
  call (calls n).1 ⟨sequenceAt calls n, (calls n).2⟩

/-- Call `n` succeeds. -/
def Succeeded (calls : ℕ → FillContext × Uuid) (n : ℕ) : Prop := (outcome calls n).1 = .ok ()

instance (calls : ℕ → FillContext × Uuid) : DecidablePred (Succeeded calls) :=
  fun n => inferInstanceAs (Decidable ((outcome calls n).1 = .ok ()))

/-- How many of the first `n` calls succeed. -/
def successes (calls : ℕ → FillContext × Uuid) (n : ℕ) : ℕ := Nat.count (Succeeded calls) n

variable (calls : ℕ → FillContext × Uuid) (n : ℕ)

/-- **The step.** A call that succeeds moves the sequence on by one, any other leaves the draft as
it was. -/
theorem outcome_cases :
    (∃ node, (calls n).1.node = some node ∧ Reaches (calls n).1.time ∧
      outcome calls n = (.ok (), ⟨sequenceAt calls n + 1,
        layOut (calls n).1.time node (sequenceAt calls n + 1) (calls n).2⟩)) ∨
    ∃ e, outcome calls n = (.error e, ⟨sequenceAt calls n, (calls n).2⟩) ∧
      (¬ Reaches (calls n).1.time ∧ e = outOfRange ∨
        Reaches (calls n).1.time ∧ (calls n).1.node = none ∧ e = .notSupported .nodeId) := by
  rw [outcome, call_eq]
  by_cases h : Reaches (calls n).1.time
  · rw [if_pos h]
    cases hn : (calls n).1.node with
    | some node => exact Or.inl ⟨node, rfl, h, rfl⟩
    | none => exact Or.inr ⟨_, rfl, Or.inr ⟨h, rfl, rfl⟩⟩
  · rw [if_neg h]
    exact Or.inr ⟨_, rfl, Or.inl ⟨h, rfl⟩⟩

variable {calls n}

theorem outcome_of_succeeded (hs : Succeeded calls n) :
    ∃ node, (calls n).1.node = some node ∧ Reaches (calls n).1.time ∧
      (outcome calls n).2 = ⟨sequenceAt calls n + 1,
        layOut (calls n).1.time node (sequenceAt calls n + 1) (calls n).2⟩ := by
  rcases outcome_cases calls n with ⟨node, hn, hreach, ho⟩ | ⟨e, ho, -⟩
  · exact ⟨node, hn, hreach, congrArg Prod.snd ho⟩
  · rw [Succeeded, ho] at hs
    cases hs

/-- **A call that fails leaves its draft as it was.** -/
theorem outcome_of_failed (hs : ¬ Succeeded calls n) :
    ∃ e, outcome calls n = (.error e, ⟨sequenceAt calls n, (calls n).2⟩) ∧
      (¬ Reaches (calls n).1.time ∧ e = outOfRange ∨
        Reaches (calls n).1.time ∧ (calls n).1.node = none ∧ e = .notSupported .nodeId) := by
  rcases outcome_cases calls n with ⟨node, -, -, ho⟩ | hfailed
  · exact absurd (congrArg Prod.fst ho) hs
  · exact hfailed

variable (calls n)

/-- A call succeeds exactly if its time is in range and it has a node id. -/
theorem succeeded_iff :
    Succeeded calls n ↔ Reaches (calls n).1.time ∧ (calls n).1.node.isSome := by
  by_cases hs : Succeeded calls n
  · obtain ⟨node, hn, hreach, -⟩ := outcome_of_succeeded hs
    rw [hn]
    exact iff_of_true hs ⟨hreach, rfl⟩
  · obtain ⟨e, -, ⟨hout, -⟩ | ⟨-, hn, -⟩⟩ := outcome_of_failed hs
    · exact iff_of_false hs fun h => hout h.1
    · rw [hn]
      exact iff_of_false hs fun h => Bool.noConfusion h.2

theorem sequenceAt_succ : sequenceAt calls (n + 1) =
    sequenceAt calls n + if Succeeded calls n then 1 else 0 := by
  have hnext : sequenceAt calls (n + 1) = (outcome calls n).2.sequence := rfl
  rw [hnext]
  by_cases hs : Succeeded calls n
  · obtain ⟨node, -, -, ho⟩ := outcome_of_succeeded hs
    rw [if_pos hs, ho]
  · obtain ⟨e, ho, -⟩ := outcome_of_failed hs
    rw [if_neg hs, ho]
    exact (BitVec.add_zero _).symm

theorem successes_succ :
    successes calls (n + 1) = successes calls n + if Succeeded calls n then 1 else 0 :=
  Nat.count_succ _ n

/-- **The sequence counts the calls that succeed**, from the last number onwards. -/
theorem sequenceAt_eq : sequenceAt calls n = 0xff + BitVec.ofNat 8 (successes calls n) := by
  induction n with
  | zero => rfl
  | succ n ih =>
    rw [sequenceAt_succ, ih, successes_succ, BitVec.ofNat_add, BitVec.add_assoc]
    split
    · rfl
    · rfl

/-- Six octets in front of the middle of 16 and two behind it leave the middle in its place. -/
theorem getElem?_around {xs ys : Octets} {x y : UInt8} (hx : xs.length = 6) (hy : ys.length = 16) :
    (xs ++ (ys.drop 6).take 8 ++ [x, y])[15]? = some y ∧
      ∀ i, 6 ≤ i → i < 14 → (xs ++ (ys.drop 6).take 8 ++ [x, y])[i]? = ys[i]? := by
  have hmiddle : ((ys.drop 6).take 8).length = 8 := by
    rw [List.length_take, List.length_drop, hy]
    rfl
  have hfront : (xs ++ (ys.drop 6).take 8).length = 14 := by rw [List.length_append, hx, hmiddle]
  refine ⟨?_, fun i hlo hhi => ?_⟩
  · rw [List.getElem?_append_right (by omega), hfront]
    rfl
  · have hback : 6 + (i - 6) = i := by omega
    rw [List.getElem?_append_left (by omega), List.getElem?_append_right (by omega), hx,
      List.getElem?_take_of_lt (by omega), List.getElem?_drop, hback]

/-- The octets of a call that succeeds end in the number of successes before it. -/
theorem octets_of_succeeded (hs : Succeeded calls n) : ∃ node, (calls n).1.node = some node ∧
    (outcome calls n).2.uuid.octets =
      Octets.ofNat 6 (fixedPoint (calls n).1.time) ++ ((calls n).2.octets.drop 6).take 8 ++
        [UInt8.ofNat (node.octet 4).toNat, UInt8.ofNat (successes calls n)] := by
  obtain ⟨node, hn, hreach, ho⟩ := outcome_of_succeeded hs
  have hnumber : sequenceAt calls n + 1 = BitVec.ofNat 8 (successes calls n) := by
    rw [sequenceAt_eq, BitVec.add_comm, ← BitVec.add_assoc]
    exact BitVec.zero_add _
  have hoctet : UInt8.ofNat (BitVec.ofNat 8 (successes calls n)).toNat =
      UInt8.ofNat (successes calls n) := by
    refine UInt8.toNat_inj.1 ?_
    simp
  refine ⟨node, hn, ?_⟩
  rw [ho, octets_layOut hreach, hnumber, hoctet]

/-- **Calls that fail take no number.** They fail if their time is out of range, or else if they
have no node id, and leave the sequence and the UUID handed in as they were. The call that is the
`k`-th one to succeed writes `k - 1` in the last octet, modulo 256, and touches no octets but the
first six and the last two. All this is what the layout does from its first number on. -/
theorem failures_take_no_number (calls : ℕ → FillContext × Uuid) :
    (Fill.newExample = .exampleLayout (sequenceAt calls 0) ∧
      ∀ n h, (Fill.exampleLayout (sequenceAt calls n)).run (calls n).1 (calls n).2 h =
        (((outcome calls n).1.map fun _ => (outcome calls n).2.uuid,
          .exampleLayout (sequenceAt calls (n + 1))), h)) ∧
    (∀ n, Succeeded calls n ↔
      (0 ≤ (calls n).1.time.toInt ∧ (calls n).1.time.toInt < bound) ∧ (calls n).1.node.isSome) ∧
    (∀ n, ¬ Succeeded calls n → sequenceAt calls (n + 1) = sequenceAt calls n ∧
      ∃ e, outcome calls n = (.error e, ⟨sequenceAt calls n, (calls n).2⟩) ∧
        (e = outOfRange ∨ (calls n).1.node = none ∧ e = .notSupported .nodeId)) ∧
    ∀ n k, Succeeded calls n → successes calls (n + 1) = k →
      (outcome calls n).2.uuid.octets[15]?.map UInt8.toNat = some ((k - 1) % 256) ∧
        ∀ i, 6 ≤ i → i < 14 → (outcome calls n).2.uuid.octets[i]? = (calls n).2.octets[i]? := by
  refine ⟨⟨rfl, fun n h => ?_⟩, succeeded_iff calls, fun n hs => ⟨?_, ?_⟩, fun n k hs hk => ?_⟩
  · have hfill := fill_eq_call (calls n).1 ⟨sequenceAt calls n, (calls n).2⟩
    exact congrArg (fun r => ((r.1, Fill.exampleLayout r.2), h)) hfill
  · rw [sequenceAt_succ, if_neg hs]
    exact BitVec.add_zero _
  · obtain ⟨e, ho, ⟨-, he⟩ | ⟨-, hn, he⟩⟩ := outcome_of_failed hs
    · exact ⟨e, ho, Or.inl he⟩
    · exact ⟨e, ho, Or.inr ⟨hn, he⟩⟩
  · obtain ⟨node, -, ho⟩ := octets_of_succeeded calls n hs
    have hbefore : k - 1 = successes calls n := by
      rw [successes_succ, if_pos hs] at hk
      omega
    obtain ⟨hlast, hmiddle⟩ := getElem?_around (Octets.length_ofNat 6 (fixedPoint (calls n).1.time))
      (Uuid.length_octets (calls n).2) (x := UInt8.ofNat (node.octet 4).toNat)
      (y := UInt8.ofNat (successes calls n))
    rw [ho, hlast, hbefore]
    exact ⟨congrArg some UInt8.toNat_ofNat', hmiddle⟩

/-- One tick too early, then without a node id, then both as they should be. -/
def mixedCalls : ℕ → FillContext × Uuid
  | 0 => (⟨-1, some 0⟩, Uuid.max)
  | 1 => (⟨0, none⟩, Uuid.max)
  | _ => (⟨0, some 0⟩, Uuid.max)

/-- The first call that succeeds writes zero, although two failed before. -/
theorem failures_take_no_number_mixed :
    sequenceAt mixedCalls 1 = sequenceAt mixedCalls 0 ∧
      sequenceAt mixedCalls 2 = sequenceAt mixedCalls 1 ∧
      (outcome mixedCalls 2).2.uuid.octets[15]?.map UInt8.toNat = some 0 := by
  obtain ⟨-, -, hfailed, hsucceeded⟩ := failures_take_no_number mixedCalls
  exact ⟨(hfailed 0 (by decide)).1, (hfailed 1 (by decide)).1,
    (hsucceeded 2 1 (by decide) (by decide)).1⟩

end ExampleLayout

end UuidForge
