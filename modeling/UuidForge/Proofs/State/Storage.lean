import UuidForge.Files.Lemmas
import UuidForge.Proofs.State.Codec
import UuidForge.Proofs.State.Domain

/-!
# What a file keeps of a state

A save writes a snapshot: both sequences and node ids, and one timestamp for both domains, the later
of the two. A load puts all of it back.

* `GeneratorState.loadRecord_of_storeRecord`: what was stored is loaded.
* `GeneratorState.attach_of_ok`, `GeneratorState.attach_of_error`: the two ways in which a load
  ends.
* `GeneratorState.domain_restore`: **a state that is restored has the sequences of the record**, and
  both clocks stand at its timestamp.
* `GeneratorState.last_le_latest`: a snapshot is not behind either clock.
-/

namespace UuidForge.GeneratorState

variable (s : GeneratorState) {k : ClockKind} {files files' : FileTree} {path : String}

/-- The later of the two last timestamps. -/
def latest : Ticks := s.lastTimestamp?.getD Ticks.never

theorem latest_eq : s.latest =
    if s.physical.last ≤ s.random.last then s.random.last else s.physical.last := by
  unfold latest lastTimestamp?
  dsimp only
  generalize (if s.physical.last ≤ s.random.last then s.random.last else s.physical.last) = t
  split
  · rename_i h
    exact h.symm
  · rfl

/-- **Neither domain is ahead of the latest timestamp.** -/
theorem last_le_latest (k : ClockKind) : (s.domain k).last ≤ s.latest := by
  rw [latest_eq]
  split
  · rename_i h
    cases k
    · exact h
    · exact Int64.le_refl _
  · rename_i h
    cases k
    · exact Int64.le_refl _
    · exact Int64.le_of_lt (Int64.not_le.1 h)

/-- A snapshot has no sequence that a file cannot keep. -/
theorem masked_snapshot : s.snapshot.masked = s.snapshot := by
  simp [StateRecord.masked, snapshot]

/-- **What was stored is loaded.** -/
theorem loadRecord_of_storeRecord {r : StateRecord}
    (h : storeRecord files path r = (true, files')) :
    loadRecord files' path = .ok r.masked := by
  have hl : files'.load (.ofString path) = .ok r.encode := FileTree.load_store h
  rw [loadRecord, hl]
  exact r.decode_encode_eq

/-- A record that is loaded is taken over. -/
theorem attach_of_ok {r : StateRecord} (h : loadRecord files path = .ok r) (s : GeneratorState)
    (e : Entropy) : s.attach (some path) files e =
      (true, { s with path := some path, lastSave := none }.restore r e) := by
  simp only [attach, h]

/-- A load that fails is remembered and told, and that is all. -/
theorem attach_of_error {cause : StorageError} (h : loadRecord files path = .error cause)
    (s : GeneratorState) (e : Entropy) : s.attach (some path) files e =
      (false, { s with path := some path, lastSave := none }.report ⟨.read, path, cause⟩, e) := by
  simp only [attach, h]

/-- A record has the sequences of a state. -/
structure Matches (r : StateRecord) : Prop where
  physical : r.physicalSequence = some (s.physical.sequence.setWidth 16)
  random : r.randomSequence = some (s.random.sequence.setWidth 16)

variable {s}

theorem matches_snapshot : s.Matches s.snapshot := ⟨rfl, rfl⟩

theorem Matches.congr {s' : GeneratorState} {r : StateRecord} (h : s.Matches r)
    (hs : ∀ k, (s'.domain k).sequence = (s.domain k).sequence) : s'.Matches r := by
  have hp : s'.physical.sequence = s.physical.sequence := hs .physical
  have hr : s'.random.sequence = s.random.sequence := hs .random
  exact ⟨by rw [hp, h.physical], by rw [hr, h.random]⟩

/-- **A load gives a state the sequences of the record**, and its timestamp to both domains. -/
theorem domain_restore {r : StateRecord} (h : s.Matches r) (s' : GeneratorState) (e : Entropy)
    (k : ClockKind) :
    ((s'.restore r e).1.domain k).sequence = (s.domain k).sequence ∧
      ((s'.restore r e).1.domain k).last = r.timestamp.getD Ticks.never := by
  have hw : ∀ n : ClockSequence, (n.setWidth 16).setWidth 14 = n := by
    intro n
    simp
  unfold restore
  rw [h.physical, h.random]
  cases k
  · exact ⟨hw _, rfl⟩
  · exact ⟨hw _, rfl⟩

/-- The record of a file has no sequence of more than 14 bits. -/
theorem masked_of_loadRecord {r : StateRecord} (hr : loadRecord files path = .ok r) :
    r.masked = r := by
  unfold loadRecord at hr
  split at hr
  · exact StateRecord.masked_of_decode hr
  · cases hr
  · cases hr

end UuidForge.GeneratorState
