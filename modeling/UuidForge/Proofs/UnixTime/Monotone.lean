import UuidForge.Proofs.Fleet.Counters
import UuidForge.Proofs.UnixTime.Layout
import UuidForge.Proofs.Uuid.TextOrder

/-!
# UUIDs of version 7 ascend

While no clock falls more than ten seconds behind what was read before, the values of a counter
ascend, and with them the UUIDs of all generators that share it.

* `Fleet.readAt_last`: the last value of a counter has the milliseconds of some reading.
* `Fleet.rank_lt_of_takes`: **every value that is taken is larger than the last one.**
* `Fleet.counted_ascending`: **of any two UUIDs the later one is larger**, and so is its text.
-/

namespace UuidForge

/-- No reading lies more than ten seconds behind one before it. -/
def Steady (ts : List Ticks) : Prop :=
  ts.Pairwise fun s t => Ticks.millisecond s ≤ Ticks.millisecond t + 10000

instance (ts : List Ticks) : Decidable (Steady ts) :=
  inferInstanceAs (Decidable (List.Pairwise _ _))

namespace Fleet

variable {w : Fleet} {es : ℕ → Event} {p : CounterPlace} {i j n : ℕ}

/-- **A value that is taken is larger than the last one.** It has the milliseconds of a reading. -/
theorem rank_lt_of_takes {ts rs : List Ticks} {k k' : Counter} {returned : Option Uuid}
    (hk : ∀ v, k.last = some v → ∃ s ∈ ts, v.ReadAt s) (hs : Steady (ts ++ rs))
    (h : Takes rs k k' returned) :
    ∃ v u, k'.last = some v ∧ (∃ s ∈ ts ++ rs, v.ReadAt s) ∧
      (∀ x, k.last = some x → x.rank < v.rank) ∧ ∀ x, returned = some x → v.uuid u = .ok x := by
  obtain ⟨v, u, t, ht, seed, hv, hl, hu⟩ := h
  cases hlast : k.last with
  | none =>
    have hr := Counter.readAt_of_value? hlast hv
    exact ⟨v, u, hl, ⟨t, List.mem_append_right _ ht, hr⟩, nofun, hu⟩
  | some x =>
    -- the last value comes from a reading too, which the new one is not far behind
    obtain ⟨s, hs', hx⟩ := hk x hlast
    have hst := (List.pairwise_append.1 hs).2.2 s hs' t ht
    obtain ⟨hlt, hr⟩ := Counter.rank_lt_of_value? hlast hx hst hv
    refine ⟨v, u, hl, ?_, fun y hy => Option.some.inj hy ▸ hlt, hu⟩
    rcases hr with hr | hr
    · exact ⟨s, List.mem_append_left _ hs', hr⟩
    · exact ⟨t, List.mem_append_right _ ht, hr⟩

theorem log_grows (hij : i ≤ j) : w.log es p i <+: w.log es p j := by
  induction j, hij using Nat.le_induction with
  | base => exact List.prefix_refl _
  | succ j _ ih => exact ih.trans (List.prefix_append _ _)

theorem steady_log (hs : Steady (w.log es p j)) (hij : i ≤ j) : Steady (w.log es p i) :=
  hs.sublist (log_grows hij).sublist

/-- **The last value of a counter** has the milliseconds of some reading. -/
theorem readAt_last (h0 : (w.counterAt p).last = none) (hs : Steady (w.log es p n)) :
    ∀ v, ((w.after es n).counterAt p).last = some v → ∃ s ∈ w.log es p n, v.ReadAt s := by
  induction n with
  | zero => intro v hv; rw [after, h0] at hv; cases hv
  | succ n ih =>
    have ih := ih (steady_log hs (Nat.le_succ n))
    intro v hv
    rcases counterAt_step (w.after es n) p (es n) with ht | ⟨hk, -⟩
    · obtain ⟨v', -, hv', hr, -⟩ := rank_lt_of_takes ih hs ht
      rw [after, hv'] at hv
      cases hv
      exact hr
    · rw [after, hk] at hv
      obtain ⟨s, hs, hr⟩ := ih v hv
      exact ⟨s, List.mem_append_left _ hs, hr⟩

/-- The last value of a counter only grows. -/
theorem rank_last_le (h0 : (w.counterAt p).last = none) (hs : Steady (w.log es p j)) (hij : i ≤ j)
    {x : CounterValue} (hx : ((w.after es i).counterAt p).last = some x) :
    ∃ y, ((w.after es j).counterAt p).last = some y ∧ x.rank ≤ y.rank := by
  induction j, hij using Nat.le_induction with
  | base => exact ⟨x, hx, Int.le_refl _⟩
  | succ j _ ih =>
    have hs' := steady_log hs (Nat.le_succ j)
    obtain ⟨y, hy, hle⟩ := ih hs'
    rcases counterAt_step (w.after es j) p (es j) with ht | ⟨hk, -⟩
    · obtain ⟨v, -, hv, -, hlt, -⟩ := rank_lt_of_takes (readAt_last h0 hs') hs ht
      exact ⟨v, hv, Int.le_trans hle (Int.le_of_lt (hlt y hy))⟩
    · exact ⟨y, by rw [after, hk, hy], hle⟩

/-- The value behind a UUID is the last one of the counter then, and larger than all before. -/
theorem value_of_counted (h0 : (w.counterAt p).last = none) (hs : Steady (w.log es p (n + 1)))
    {x : Uuid} (hx : (w.after es n).countedAt p (es n) = some x) :
    ∃ v u s, ((w.after es (n + 1)).counterAt p).last = some v ∧ v.ReadAt s ∧ v.uuid u = .ok x ∧
      ∀ y, ((w.after es n).counterAt p).last = some y → y.rank < v.rank := by
  rcases counterAt_step (w.after es n) p (es n) with ht | ⟨-, hn⟩
  · obtain ⟨v, u, hv, ⟨s, -, hr⟩, hlt, hu⟩ :=
      rank_lt_of_takes (readAt_last h0 (steady_log hs (Nat.le_succ n))) hs ht
    exact ⟨v, u, s, hv, hr, hu x hx, hlt⟩
  · rw [hn] at hx
    cases hx

/-- **UUIDs of version 7 ascend.** For any generators on a fresh counter, in any order of calls and
with any entropy, as long as no reading lies more than ten seconds behind one before it: of two
UUIDs the later one is larger, as a number and as a text. A call that waits while others are
answered is a row of calls, each with the patience for one reading. -/
theorem counted_ascending (w : Fleet) (es : ℕ → Event) (p : CounterPlace)
    (h0 : (w.counterAt p).last = none) (hs : Steady (w.log es p (j + 1))) (hij : i < j)
    {u v : Uuid} (hu : (w.after es i).countedAt p (es i) = some u)
    (hv : (w.after es j).countedAt p (es j) = some v) : u < v ∧ u.text < v.text := by
  obtain ⟨x, a, s, hx, hxs, hxu, -⟩ := value_of_counted h0 (steady_log hs (by omega)) hu
  obtain ⟨y, b, t, -, hyt, hyv, hlt⟩ := value_of_counted h0 hs hv
  obtain ⟨z, hz, hle⟩ := rank_last_le h0 (steady_log hs (Nat.le_succ j)) (by omega) hx
  have hlt : u < v :=
    CounterValue.uuid_lt_uuid hxs hyt (Int.lt_of_le_of_lt hle (hlt z hz)) hxu hyv
  exact ⟨hlt, Uuid.text_lt_text_iff.2 hlt⟩

/-- Generators on the shared counter, each with a clock that is a millisecond behind the clock of
the one before. -/
def lagging : Fleet where
  host := .start (.ofScript #[]) 0 none 0
  generator i := .unixTime
    { source := .ofReadings fun _ => 10000000 - 10000 * Int64.ofNat i, counter := .shared }

/-- The generators are asked in turn. -/
def inTurn (n : ℕ) : Event := .ask n .fresh

/-- Two UUIDs of clocks that disagree ascend all the same. -/
theorem counted_ascending_lagging : Steady (lagging.log inTurn .shared 2) ∧
    ∃ u v, (lagging.after inTurn 0).countedAt .shared (inTurn 0) = some u ∧
      (lagging.after inTurn 1).countedAt .shared (inTurn 1) = some v ∧ u < v ∧ u.text < v.text := by
  have hs : Steady (lagging.log inTurn .shared 2) := by decide
  obtain ⟨u, hu⟩ : ∃ u, (lagging.after inTurn 0).countedAt .shared (inTurn 0) = some u :=
    Option.isSome_iff_exists.1 (by decide)
  obtain ⟨v, hv⟩ : ∃ v, (lagging.after inTurn 1).countedAt .shared (inTurn 1) = some v :=
    Option.isSome_iff_exists.1 (by decide)
  exact ⟨hs, u, v, hu, hv, counted_ascending lagging inTurn .shared rfl hs (by decide) hu hv⟩

end Fleet

end UuidForge
