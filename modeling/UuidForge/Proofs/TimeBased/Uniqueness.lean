import UuidForge.Proofs.Fleet.Clocks
import UuidForge.Proofs.TimeBased.Stamp

/-!
# Time-based UUIDs do not repeat

Generators that advance the same clock get no pair of timestamp and clock sequence twice before the
sequence has gone all the way round, whatever their clocks read and whatever their node ids are. A
UUID of version 1 or 6 tells its stamp, so it does not come up twice either.

* `Fleet.stamp_of_returned`: the stamp behind a UUID was handed out.
* `Fleet.time_based_unique`: **in every run, a repeated pair takes a full round of the sequence, and
  in less than a round no UUID of version 1 or 6 is repeated.**
-/

namespace UuidForge.Fleet

variable {w : Fleet} {es : ℕ → Event} {p : ClockPlace} {i j n : ℕ} {u : Uuid}

/-- **The stamp behind a UUID of version 1 or 6** was handed out with it. -/
theorem stamp_of_returned (hv : u.version = .v1 ∨ u.version = .v6)
    (hu : (w.after es n).returnedAt p (es n) = some u) :
    ∃ s : TimeStamp, (w.trail es p).handed n = some (s.time, s.sequence) ∧
      s.uuid u.version = .ok u := by
  unfold trail
  dsimp only
  generalize w.after es n = w at hu ⊢
  cases he : es n with
  | pass => rw [he] at hu; cases hu
  | ask i r =>
    simp only [he, returnedAt] at hu
    split at hu
    · rename_i hp
      obtain ⟨b, hb, -⟩ := Option.map_eq_some_iff.1 hp
      have hok : (w.answer i r).1.1 = .ok u := by
        cases ha : (w.answer i r).1.1 with
        | error e => rw [ha] at hu; cases hu
        | ok u' => rw [ha] at hu; cases hu; rfl
      obtain ⟨s, hs, h2 | hsu⟩ := Generator.uuid_of_answer (by rw [hb]; rfl) hok
      · rw [h2] at hv
        exact absurd hv (by decide)
      · exact ⟨s, by simp [handedAt, hp, hs], hsu⟩
    · cases hu

/-- **Uniqueness.** For any generators on any clock, in any order of calls and with any readings: if
two events are handed the same pair, the increments between them are a positive multiple of the
number of sequences. With fewer increments no UUID of version 1 or 6 is returned twice. -/
theorem time_based_unique (w : Fleet) (es : ℕ → Event) (p : ClockPlace) (hij : i < j) :
    (∀ q, (w.trail es p).handed i = some q → (w.trail es p).handed j = some q →
      0 < (w.trail es p).increments i j ∧ sequenceCount ∣ (w.trail es p).increments i j) ∧
    ∀ u : Uuid, u.version = .v1 ∨ u.version = .v6 →
      (w.trail es p).increments i j < sequenceCount →
      (w.after es i).returnedAt p (es i) = some u →
      (w.after es j).returnedAt p (es j) ≠ some u := by
  have hpair : ∀ q, (w.trail es p).handed i = some q → (w.trail es p).handed j = some q →
      0 < (w.trail es p).increments i j ∧ sequenceCount ∣ (w.trail es p).increments i j :=
    fun q hi hj => Trail.wrapped_of_repeated (fun n _ _ => regular_trail w es p n) hij hi hj
  refine ⟨hpair, fun u hv hfew hi hj => ?_⟩
  -- equal UUIDs come from equal stamps, whose pair would be repeated too soon
  obtain ⟨s, hs, hu⟩ := stamp_of_returned hv hi
  obtain ⟨s', hs', hu'⟩ := stamp_of_returned hv hj
  cases TimeStamp.uuid_injective hv hu hu'
  obtain ⟨hpos, hdvd⟩ := hpair _ hs hs'
  exact absurd (Nat.le_of_dvd hpos hdvd) (by omega)

/-! ## A clock that stands still -/

/-- A fleet whose generators of version 6 always read time zero. -/
def standing : Fleet where
  host := .start (.ofScript #[]) 0 none 0
  generator _ := .timeBased
    { version := .v6, source := .ofReadings fun _ => 0, nodes := some (.fixed 1)
      clock := .own (ClockState.new 0) }

/-- Generator `0` is asked all the time. -/
def asking : ℕ → Event := fun _ => .ask 0 .fresh

/-- The clock after `n` calls: the first one does not increment the sequence. -/
def standingClock : ℕ → ClockState
  | 0 => ClockState.new 0
  | n + 1 => { last := 0, sequence := BitVec.ofNat 14 n, node := some 1 }

theorem refresh_standingClock (n : ℕ) :
    ((standingClock n).refresh 0 (some 1)).2 = standingClock (n + 1) := by
  cases n with
  | zero => decide
  | succ n =>
    have hd : (standingClock (n + 1)).incrementDue 0 (some 1) = true := rfl
    rw [ClockState.refresh, hd, if_pos rfl]
    simp [standingClock, BitVec.ofNat_add]

theorem generator_standing (n : ℕ) :
    (standing.after asking n).generator 0 = .timeBased
      { version := .v6, source := .readings (fun _ => 0) n, nodes := some (.fixed 1)
        clock := .own (standingClock n) } := by
  induction n with
  | zero => rfl
  | succ n ih =>
    rw [after, asking, generator_step_self, answer, ih, ← refresh_standingClock n]
    rfl

theorem handed_standing (n : ℕ) :
    (standing.trail asking (.own 0)).handed n = some (0, BitVec.ofNat 14 n) := by
  have hs : BitVec.ofNat 14 n = ((standingClock n).refresh 0 (some 1)).1.sequence := by
    rw [← ClockState.refresh_sequence_eq, refresh_standingClock]
    rfl
  simp only [trail, asking, handedAt, place?, generator_standing, hs]
  rfl

/-- After a full round the clock hands out its first pair again; before that, UUIDs differ. -/
theorem time_based_unique_standing :
    ((standing.trail asking (.own 0)).handed 0 = some (0, 0) ∧
      (standing.trail asking (.own 0)).handed 16384 = some (0, 0) ∧
      sequenceCount ∣ (standing.trail asking (.own 0)).increments 0 16384) ∧
    ∃ u : Uuid, u.version = .v6 ∧
      (standing.after asking 0).returnedAt (.own 0) (asking 0) = some u ∧
      (standing.trail asking (.own 0)).increments 0 1 < sequenceCount ∧
      (standing.after asking 1).returnedAt (.own 0) (asking 1) ≠ some u := by
  have h0 := handed_standing 0
  have h1 := handed_standing 16384
  obtain ⟨u, hv, hu⟩ : ∃ u : Uuid, u.version = .v6 ∧
      (standing.after asking 0).returnedAt (.own 0) (asking 0) = some u :=
    ⟨(standing.answer 0 .fresh).1.1.toOption.getD Uuid.nil, by decide, by decide⟩
  have hfew : (standing.trail asking (.own 0)).increments 0 1 < sequenceCount :=
    Nat.lt_of_le_of_lt Trail.increments_le (by decide)
  exact ⟨⟨h0, h1, ((time_based_unique standing asking (.own 0) (by decide)).1 _ h0 h1).2⟩,
    u, hv, hu, hfew,
    (time_based_unique standing asking (.own 0) (by decide)).2 u (Or.inr hv) hfew hu⟩

end UuidForge.Fleet
