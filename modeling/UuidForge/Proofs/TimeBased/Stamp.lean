import UuidForge.Generator.TimeBased
import UuidForge.Proofs.Time.Scale
import UuidForge.Proofs.Uuid.Stamp

/-!
# Time stamps and their UUIDs

The UUID of version 1 or 6 for a time stamp holds the count of its time, its clock sequence and its
node id in slices that lie apart from each other and from version and variant.

* `TimeStamp.uuid_eq_ok_iff`: there is a UUID exactly if the time is on the Gregorian scale.
* `TimeStamp.uuid_injective`: **stamps with the same UUID are the same.**
* `TimeStamp.stamp_of_uuid`, `TimeStamp.stamp_of_dceUuid`: version and variant are stamped last.
* `TimeStamp.version_of_uuid`, `TimeStamp.version_of_dceUuid`: UUIDs carry their version.
-/

namespace UuidForge

/-- Where versions 1 and 6 keep the time, most significant slice first. -/
def timeSlices (v : Version) : List Slice :=
  ((Layout.ofVersion v).time.map TimeField.slices).getD []

/-- The slices of versions 1 and 6 lie apart from each other and from the stamp. -/
structure TimeSlices (ss : List Slice) : Prop where
  apart : ss.Pairwise Slice.Apart
  fits : ∀ s ∈ ss, s.Fits
  width : totalWidth ss = 60
  clock : ∀ s ∈ ss, s.Apart Slice.clockSequence
  node : ∀ s ∈ ss, s.Apart Slice.node
  version : ∀ s ∈ ss, s.Apart Slice.version
  variant : ∀ s ∈ ss, s.Apart Variant.rfc4122.slice

theorem timeSlices_ok {v : Version} (hv : v = .v1 ∨ v = .v6) : TimeSlices (timeSlices v) := by
  rcases hv with rfl | rfl
  · constructor <;> decide
  · constructor <;> decide

/-- A stamp of version and variant leaves time, clock sequence and node id alone. -/
theorem read_stamp_parts {v : Version} (hv : v = .v1 ∨ v = .v6) (u : Uuid) :
    gather (timeSlices v) (u.stamp v .rfc4122) = gather (timeSlices v) u ∧
      Slice.clockSequence.read (u.stamp v .rfc4122) = Slice.clockSequence.read u ∧
      Slice.node.read (u.stamp v .rfc4122) = Slice.node.read u := by
  have hss := timeSlices_ok hv
  refine ⟨gather_congr fun t ht => ?_, ?_, ?_⟩
  · exact u.read_stamp_of_apart v .rfc4122 (hss.version t ht) (hss.variant t ht)
  · exact u.read_stamp_of_apart v .rfc4122 (by decide) (by decide)
  · exact u.read_stamp_of_apart v .rfc4122 (by decide) (by decide)

namespace TimeStamp

variable {s s' : TimeStamp} {u : Uuid} {v : Version}

/-- The UUID with a count, a clock sequence and a node id in their slices. -/
def layOut (s : TimeStamp) (v : Version) (n : ℕ) : Uuid :=
  (Slice.node.write (Slice.clockSequence.write (scatter (timeSlices v) Uuid.nil n) s.sequence)
    s.node).stamp v .rfc4122

/-- **The UUID of a stamp.** There is one exactly if the time is on the Gregorian scale. -/
theorem uuid_eq_ok_iff (hv : v = .v1 ∨ v = .v6) :
    s.uuid v = .ok u ↔ ∃ n, TimeScale.gregorian.count? s.time = some n ∧ u = s.layOut v n := by
  have ht : (Layout.ofVersion v).time = some ⟨.gregorian, 0, timeSlices v⟩ := by
    rcases hv with rfl | rfl <;> rfl
  have hc : (Layout.ofVersion v).clock = some Slice.clockSequence := by
    rcases hv with rfl | rfl <;> rfl
  have hn : (Layout.ofVersion v).hasNode = true := by
    rcases hv with rfl | rfl <;> rfl
  have hs : s.sequence.toNat < 1 <<< Slice.clockSequence.width := s.sequence.isLt
  unfold uuid Layout.setTimestamp Layout.setClockSequence Layout.setNodeId TimeField.write
  simp only [ht, hc, hn, hs, if_true]
  cases TimeScale.gregorian.count? s.time with
  | none => simp [bind, Except.bind]
  | some n => simp [bind, Except.bind, pure, Except.pure, layOut, eq_comm]

theorem read_layOut (hv : v = .v1 ∨ v = .v6) {n : ℕ} (hn : n < TimeScale.gregorian.size) :
    gather (timeSlices v) (s.layOut v n) = n ∧
      Slice.clockSequence.read (s.layOut v n) = s.sequence ∧
      Slice.node.read (s.layOut v n) = s.node := by
  have hss := timeSlices_ok hv
  unfold layOut
  obtain ⟨htime, hclock, hnode⟩ := read_stamp_parts hv (Slice.node.write
    (Slice.clockSequence.write (scatter (timeSlices v) Uuid.nil n) s.sequence) s.node)
  rw [htime, hclock, hnode]
  refine ⟨?_, ?_, Slice.read_write (by decide) _ _⟩
  · rw [gather_congr fun t ht => Slice.read_write_of_apart (hss.node t ht) _ _,
      gather_congr fun t ht => Slice.read_write_of_apart (hss.clock t ht) _ _,
      gather_scatter hss.apart hss.fits, hss.width]
    exact Nat.mod_eq_of_lt hn
  · rw [Slice.read_write_of_apart (by decide), Slice.read_write (by decide)]

/-- The UUID of a stamp has its clock sequence. -/
theorem clockSequence_of_uuid (hv : v = .v1 ∨ v = .v6) (h : s.uuid v = .ok u) :
    (Layout.ofVersion v).clockSequence u = .ok s.sequence.toNat := by
  obtain ⟨n, hn, rfl⟩ := (uuid_eq_ok_iff hv).1 h
  have hclock : (Layout.ofVersion v).clock = some Slice.clockSequence := by
    rcases hv with rfl | rfl <;> rfl
  obtain ⟨-, hread, -⟩ := s.read_layOut hv (TimeScale.count?_eq_some_iff.1 hn).2
  rw [Layout.clockSequence, hclock]
  exact congrArg (fun x : ClockSequence => Except.ok x.toNat) hread

/-- **Stamps with the same UUID are the same.** -/
theorem uuid_injective (hv : v = .v1 ∨ v = .v6) (h : s.uuid v = .ok u) (h' : s'.uuid v = .ok u) :
    s = s' := by
  obtain ⟨n, hn, rfl⟩ := (uuid_eq_ok_iff hv).1 h
  obtain ⟨n', hn', he⟩ := (uuid_eq_ok_iff hv).1 h'
  obtain ⟨h1, h2, h3⟩ := s.read_layOut hv (TimeScale.count?_eq_some_iff.1 hn).2
  obtain ⟨h1', h2', h3'⟩ := s'.read_layOut hv (TimeScale.count?_eq_some_iff.1 hn').2
  -- one UUID holds only one count, one sequence and one node id
  rw [he] at h1 h2 h3
  cases h1.symm.trans h1'
  cases s
  cases s'
  congr
  · exact TimeScale.count?_injective rfl hn hn'
  · exact h2.symm.trans h2'
  · exact h3.symm.trans h3'

/-- **A UUID of a time stamp is stamped last**, whatever the version. -/
theorem stamp_of_uuid (h : s.uuid v = .ok u) : ∃ x : Uuid, u = x.stamp v .rfc4122 := by
  obtain ⟨_, -, h⟩ := bind_eq_ok.1 h
  obtain ⟨_, -, h⟩ := bind_eq_ok.1 h
  obtain ⟨x, -, h⟩ := bind_eq_ok.1 h
  exact ⟨x, (Except.ok.inj h).symm⟩

theorem version_of_uuid (h : s.uuid v = .ok u) : u.version = v := by
  obtain ⟨x, rfl⟩ := stamp_of_uuid h
  exact x.version_stamp v .rfc4122

/-- **A UUID of version 2 is stamped last.** -/
theorem stamp_of_dceUuid {d : LocalDomain} {localId : BitVec 32}
    (h : s.dceUuid d localId = .ok u) : ∃ x : Uuid, u = x.stamp .v2 .rfc4122 := by
  obtain ⟨_, -, h⟩ := bind_eq_ok.1 h
  obtain ⟨_, -, h⟩ := bind_eq_ok.1 h
  obtain ⟨_, -, h⟩ := bind_eq_ok.1 h
  obtain ⟨_, -, h⟩ := bind_eq_ok.1 h
  obtain ⟨x, -, h⟩ := bind_eq_ok.1 h
  exact ⟨x, (Except.ok.inj h).symm⟩

/-- **A UUID of version 2 carries version 2.** -/
theorem version_of_dceUuid {d : LocalDomain} {localId : BitVec 32}
    (h : s.dceUuid d localId = .ok u) : u.version = .v2 := by
  obtain ⟨x, rfl⟩ := stamp_of_dceUuid h
  exact x.version_stamp .v2 .rfc4122

end TimeStamp

end UuidForge
