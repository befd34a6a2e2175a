import UuidForge.Proofs.Clock.Wrap
import UuidForge.Proofs.Layout.Partition
import UuidForge.Proofs.TimeBased.Uniqueness
import UuidForge.Proofs.Uuid.Order

/-!
# The order of version 6

Version 6 keeps time, clock sequence and node id in this order from the top, so its UUIDs are in the
order of their stamps; the bits of version and variant between them are always the same.

* `TimeStamp.stamp_lt_stamp_iff`: **UUIDs of version 6 are in the order of their stamps.**
* `Fleet.sortable`: generators on one clock that does not run backwards return ascending UUIDs of
  version 6, unless the time stands still until the sequence wraps.
-/

namespace UuidForge

/-- UUIDs of one version and of the standard variant compare by time, clock sequence and node id. -/
theorem Uuid.lt_iff_of_sortable {u v : Uuid}
    (hversion : Slice.version.read u = Slice.version.read v)
    (hvariant : Variant.rfc4122.slice.read u = Variant.rfc4122.slice.read v) :
    u < v ↔ gather (timeSlices .v6) u < gather (timeSlices .v6) v ∨
      gather (timeSlices .v6) u = gather (timeSlices .v6) v ∧
        (Slice.clockSequence.read u < Slice.clockSequence.read v ∨
          Slice.clockSequence.read u = Slice.clockSequence.read v ∧
            Slice.node.read u < Slice.node.read v) := by
  have htile : Tile 128 [Slice.timeLow, Slice.timeMid, Slice.version, Slice.timeHi,
      Variant.rfc4122.slice, Slice.clockSequence, Slice.node] 0 := by decide
  have htime : timeSlices .v6 = [Slice.timeLow, Slice.timeMid, Slice.timeHi] := rfl
  have hnil : ∀ x y, ¬ gather [] x < gather [] y := fun _ _ => Nat.lt_irrefl 0
  rw [lt_iff_of_tile htile, htime]
  -- both sides compare the same seven slices, version and variant never decide
  simp only [gather_cons_lt_iff, gather_eq_gather_iff, List.forall_mem_cons, BitVec.lt_def,
    hversion, hvariant, hnil, Nat.lt_irrefl, List.not_mem_nil, false_implies, implies_true,
    and_false, or_false, false_or, true_and, and_or_left, and_assoc, or_assoc]

namespace TimeStamp

variable {s s' : TimeStamp} {x x' u u' : Uuid}

/-- The lexicographic order of stamps: time, then clock sequence, then node id. -/
def Before (s s' : TimeStamp) : Prop :=
  s.time < s'.time ∨ s.time = s'.time ∧
    (s.sequence < s'.sequence ∨ s.sequence = s'.sequence ∧ s.node < s'.node)

/-- The writes of a stamp to the components of versions 1 and 6. -/
def writes (s : TimeStamp) : List Layout.Write :=
  [⟨.timestamp, s.time⟩, ⟨.clockSequence, s.sequence.toNat⟩, ⟨.nodeId, s.node⟩]

/-- The components of version 6 hold the stamp. -/
structure HeldBy (s : TimeStamp) (x : Uuid) : Prop where
  time : (Layout.ofVersion .v6).timestamp x = .ok s.time
  sequence : (Layout.ofVersion .v6).clockSequence x = .ok s.sequence.toNat
  node : (Layout.ofVersion .v6).nodeId x = .ok s.node

theorem HeldBy.read (h : s.HeldBy x) :
    TimeScale.gregorian.point (gather (timeSlices .v6) x) = s.time ∧
      Slice.clockSequence.read x = s.sequence ∧ Slice.node.read x = s.node :=
  ⟨Except.ok.inj h.time, BitVec.eq_of_toNat_eq (Except.ok.inj h.sequence), Except.ok.inj h.node⟩

/-- **UUIDs of version 6 are in the order of their stamps.** -/
theorem stamp_lt_stamp_iff (h : s.HeldBy x) (h' : s'.HeldBy x') :
    x.stamp .v6 .rfc4122 < x'.stamp .v6 .rfc4122 ↔ s.Before s' := by
  have hss := timeSlices_ok (v := .v6) (Or.inr rfl)
  have hsize : ∀ y : Uuid, gather (timeSlices .v6) y < TimeScale.gregorian.size := by
    intro y
    have hlt := gather_lt (timeSlices .v6) y
    rwa [hss.width] at hlt
  rw [Uuid.lt_iff_of_sortable (by rw [Uuid.read_version_stamp, Uuid.read_version_stamp])
    (by rw [Uuid.read_variant_stamp, Uuid.read_variant_stamp])]
  obtain ⟨hgather, hclock, hnode⟩ := read_stamp_parts (v := .v6) (Or.inr rfl) x
  obtain ⟨hgather', hclock', hnode'⟩ := read_stamp_parts (v := .v6) (Or.inr rfl) x'
  obtain ⟨htime, hseq, hnd⟩ := h.read
  obtain ⟨htime', hseq', hnd'⟩ := h'.read
  rw [hgather, hgather', hclock, hclock', hnode, hnode', Before, ← htime, ← htime', ← hseq,
    ← hseq', ← hnd, ← hnd',
    TimeScale.point_lt_point_iff TimeScale.gregorian_sound (hsize x) (hsize x')]
  -- on the scale, equal times have equal counts
  have hinj : TimeScale.gregorian.point (gather (timeSlices .v6) x) =
      TimeScale.gregorian.point (gather (timeSlices .v6) x') ↔
        gather (timeSlices .v6) x = gather (timeSlices .v6) x' :=
    ⟨TimeScale.point_injective TimeScale.gregorian_sound (hsize x) (hsize x'), congrArg _⟩
  rw [hinj]

/-- **A stamp in range can be written to any UUID**, in any order of its parts, and is held then. -/
theorem exists_held (hs : Version.v6.Accepts .timestamp s.time) (u₀ : Uuid)
    {ws : List Layout.Write} (hws : ws.Perm s.writes) :
    ∃ x, (Layout.ofVersion .v6).setAll u₀ ws = .ok x ∧ s.HeldBy x := by
  have hparts := Version.lensPartition (v := .v6) (by decide)
  have hmem : ∀ y ∈ ws, y.1 ∈ Version.v6.components := by
    intro y hy
    have hmap : s.writes.map Sigma.fst = Version.v6.components := rfl
    rw [← hmap]
    exact List.mem_map_of_mem (hws.mem_iff.1 hy)
  have haccepts : ∀ y ∈ ws, Version.v6.Accepts y.1 y.2 := by
    intro y hy
    have hy := hws.mem_iff.1 hy
    simp only [writes, List.mem_cons, List.not_mem_nil, or_false] at hy
    rcases hy with rfl | rfl | rfl
    · exact hs
    · exact s.sequence.isLt
    · trivial
  have hnd : ws.Pairwise (·.1 ≠ ·.1) := by
    refine (hws.pairwise_iff fun h => h.symm).2 ?_
    simp [writes]
  obtain ⟨x, hx⟩ := (hparts.exists_setAll_iff hmem).2 haccepts
  have hget := hparts.get_setAll hmem hnd hx
  have hheld : ∀ y ∈ s.writes, (Layout.ofVersion .v6).get x y.1 = .ok (Version.v6.kept y.1 y.2) :=
    fun y hy => hget y (hws.mem_iff.2 hy)
  exact ⟨x, hx, hheld ⟨.timestamp, s.time⟩ (by simp [writes]),
    hheld ⟨.clockSequence, s.sequence.toNat⟩ (by simp [writes]),
    hheld ⟨.nodeId, s.node⟩ (by simp [writes])⟩

theorem uuid_of_accepts (hs : Version.v6.Accepts .timestamp s.time) :
    ∃ x, s.HeldBy x ∧ s.uuid .v6 = .ok (x.stamp .v6 .rfc4122) := by
  obtain ⟨x, hx, hheld⟩ := exists_held hs Uuid.nil (List.Perm.refl s.writes)
  refine ⟨x, hheld, ?_⟩
  obtain ⟨u₁, h₁, hx⟩ := Layout.setAll_cons_eq_ok.1 hx
  obtain ⟨u₂, h₂, hx⟩ := Layout.setAll_cons_eq_ok.1 hx
  obtain ⟨u₃, h₃, hx⟩ := Layout.setAll_cons_eq_ok.1 hx
  cases hx
  exact bind_eq_ok.2 ⟨u₁, h₁, bind_eq_ok.2 ⟨u₂, h₂, bind_eq_ok.2 ⟨x, h₃, rfl⟩⟩⟩

/-- **The UUIDs that stamps in range get** are in the order of the stamps. -/
theorem uuid_lt_uuid_iff (hs : Version.v6.Accepts .timestamp s.time)
    (hs' : Version.v6.Accepts .timestamp s'.time) (hu : s.uuid .v6 = .ok u)
    (hu' : s'.uuid .v6 = .ok u') : u < u' ↔ s.Before s' := by
  obtain ⟨x, hx, he⟩ := uuid_of_accepts hs
  obtain ⟨x', hx', he'⟩ := uuid_of_accepts hs'
  cases hu.symm.trans he
  cases hu'.symm.trans he'
  exact stamp_lt_stamp_iff hx hx'

end TimeStamp

namespace Fleet

variable {w : Fleet} {es : ℕ → Event} {p : ClockPlace} {i j n : ℕ} {u u' : Uuid}

/-- All times that are read for the clock in a place can be told by version 6. -/
def InRange (w : Fleet) (es : ℕ → Event) (p : ClockPlace) : Prop :=
  ∀ n q, (w.trail es p).handed n = some q → Version.v6.Accepts .timestamp q.1

/-- With times in range, a generator of version 6 always has an answer. -/
theorem exists_returned (hrange : w.InRange es p) {g : TimeBased} (he : es n = .ask i .fresh)
    (hg : (w.after es n).generator i = .timeBased g) (hv : g.version = .v6)
    (hp : g.clock.place i = p) :
    ∃ u, (w.after es n).returnedAt p (es n) = some u ∧ u.version = .v6 := by
  have hplace : (w.after es n).place? i = some p := by
    rw [place?, hg, ← hp]
    rfl
  have hhanded : (w.trail es p).handed n = some ((g.stamp (w.after es n).host).1.1.time,
      (g.stamp (w.after es n).host).1.1.sequence) := by
    unfold trail
    dsimp only
    rw [he, handedAt, if_pos hplace, hg]
    rfl
  obtain ⟨x, -, hx⟩ := TimeStamp.uuid_of_accepts (hrange n _ hhanded)
  have hversion : (g.stamp (w.after es n).host).1.2.version = .v6 := by
    obtain ⟨_, _, -, hstamp⟩ := g.stamp_eq (w.after es n).host
    rw [hstamp]
    exact hv
  have hanswer : ((w.after es n).answer i .fresh).1.1 = .ok (x.stamp .v6 .rfc4122) := by
    rw [answer, hg]
    exact (congrArg (TimeStamp.uuid · _) hversion).trans hx
  refine ⟨x.stamp .v6 .rfc4122, ?_, Uuid.version_stamp _ _ _⟩
  rw [he, returnedAt, if_pos hplace, hanswer]
  rfl

/-- **Version 6 is sortable.** Whatever UUIDs they are written to, the UUIDs of two stamps in range
are in the lexicographic order of the stamps. In any run of generators on one clock that reads times
in range and never in descending order, generators of version 6 always have an answer, and a later
UUID of version 6 is larger, unless the time stood still and the sequence wrapped in between. -/
theorem sortable (w : Fleet) (es : ℕ → Event) (p : ClockPlace) :
    (∀ (s s' : TimeStamp) (u₀ u₀' : Uuid) (ws ws' : List Layout.Write),
      Version.v6.Accepts .timestamp s.time → Version.v6.Accepts .timestamp s'.time →
      ws.Perm s.writes → ws'.Perm s'.writes →
      ∃ x x', (Layout.ofVersion .v6).setAll u₀ ws = .ok x ∧
        (Layout.ofVersion .v6).setAll u₀' ws' = .ok x' ∧
        (x.stamp .v6 .rfc4122 < x'.stamp .v6 .rfc4122 ↔ s.Before s')) ∧
    (w.InRange es p → (w.trail es p).NeverBack →
      (∀ n i g, es n = .ask i .fresh → (w.after es n).generator i = .timeBased g →
        g.version = .v6 → g.clock.place i = p →
        ∃ u, (w.after es n).returnedAt p (es n) = some u ∧ u.version = .v6) ∧
      ∀ i j, i < j → ∀ u u' : Uuid, u.version = .v6 → u'.version = .v6 →
        (w.after es i).returnedAt p (es i) = some u →
        (w.after es j).returnedAt p (es j) = some u' →
        u < u' ∨ (w.trail es p).StoodStill i j ∧ (w.trail es p).Wrapped i j) := by
  refine ⟨?_, fun hrange hback => ⟨?_, ?_⟩⟩
  · intro s s' u₀ u₀' ws ws' hs hs' hws hws'
    obtain ⟨x, hx, hheld⟩ := TimeStamp.exists_held hs u₀ hws
    obtain ⟨x', hx', hheld'⟩ := TimeStamp.exists_held hs' u₀' hws'
    exact ⟨x, x', hx, hx', TimeStamp.stamp_lt_stamp_iff hheld hheld'⟩
  · intro n i g he hg hv hp
    exact exists_returned hrange he hg hv hp
  · intro i j hij u u' hv hv' hu hu'
    obtain ⟨s, hi, hsu⟩ := stamp_of_returned (Or.inr hv) hu
    obtain ⟨s', hj, hsu'⟩ := stamp_of_returned (Or.inr hv') hu'
    rw [hv] at hsu
    rw [hv'] at hsu'
    have horder := TimeStamp.uuid_lt_uuid_iff (hrange i _ hi) (hrange j _ hj) hsu hsu'
    -- the first part that differs decides, and it has grown
    rcases Trail.ascends_or_wrapped (fun n _ _ => regular_trail w es p n) hij hi hj
      (hback i j hij.le _ _ hi hj) with htime | ⟨htime, hseq | hwrapped⟩
    · exact Or.inl (horder.2 (Or.inl htime))
    · exact Or.inl (horder.2 (Or.inr ⟨htime, Or.inl hseq⟩))
    · exact Or.inr ⟨Trail.stoodStill_of_eq hback hi hj htime, hwrapped⟩

theorem clock_standing (n : ℕ) : (standing.trail asking (.own 0)).clock n = standingClock n := by
  unfold trail clockAt
  dsimp only
  rw [generator_standing]
  rfl

/-- On a clock that stands still, the first two UUIDs ascend: the sequence has not wrapped yet. -/
theorem sortable_standing :
    standing.InRange asking (.own 0) ∧ (standing.trail asking (.own 0)).NeverBack ∧
      ∃ u u' : Uuid, (standing.after asking 0).returnedAt (.own 0) (asking 0) = some u ∧
        (standing.after asking 1).returnedAt (.own 0) (asking 1) = some u' ∧ u < u' := by
  have htime : ∀ n q, (standing.trail asking (.own 0)).handed n = some q → q.1 = 0 := by
    intro n q hq
    rw [handed_standing] at hq
    cases hq
    rfl
  have hrange : standing.InRange asking (.own 0) := by
    intro n q hq
    rw [htime n q hq]
    exact ⟨by decide, by decide⟩
  have hback : (standing.trail asking (.own 0)).NeverBack := by
    intro m n _ q q' hq hq'
    rw [htime m q hq, htime n q' hq']
    exact Int64.le_refl 0
  obtain ⟨hreturned, hascends⟩ := (sortable standing asking (.own 0)).2 hrange hback
  obtain ⟨u, hu, hv⟩ := hreturned 0 0 _ rfl (generator_standing 0) rfl rfl
  obtain ⟨u', hu', hv'⟩ := hreturned 1 0 _ rfl (generator_standing 1) rfl rfl
  refine ⟨hrange, hback, u, u', hu, hu', ?_⟩
  refine (hascends 0 1 (by decide) u u' hv hv' hu hu').resolve_right ?_
  rintro ⟨-, m, h0, h1, hlast, -⟩
  have hm : m = 1 := by omega
  rw [hm, clock_standing] at hlast
  exact absurd hlast (by decide)

end Fleet

end UuidForge
