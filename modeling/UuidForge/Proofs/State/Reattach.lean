import Mathlib.Logic.Function.Basic
import UuidForge.Proofs.State.OwnFile

/-!
# Loading one's own file again

A state may be attached to its own file again, to retry after a failure. The load takes the
timestamp of the file, which may lie behind what the state has handed out since the last save. Then
a refresh between the two repeats a pair.

* `Host.NotBehind`: the file is not behind a domain.
* `Host.notBehind_or_latest`: where it is, the last pair of the domain was handed out in the run.
* `Host.never_reused_iff`: **pairs are safe, whatever refresh comes next, exactly if no load finds
  the file behind a domain.**
-/

namespace UuidForge

/-- Up to event `m`, a pair is handed out twice only after a full round of the sequence. -/
def Trail.NeverReused (T : Trail) (m : ℕ) : Prop :=
  ∀ i j p, i < j → j ≤ m → T.handed i = some p → T.handed j = some p →
    0 < T.increments i j ∧ sequenceCount ∣ T.increments i j

/-- The pair that a clock remembers before event `n` was handed out, and nothing after it. -/
def Trail.Latest (T : Trail) (n : ℕ) : Prop :=
  ∃ i < n, T.handed i = some ((T.clock n).last, (T.clock n).sequence) ∧
    ∀ m, i < m → m < n → T.handed m = none

namespace Host

variable {h : Host} {p : String} {k : ClockKind} {e : StateEvent} {es es' : ℕ → StateEvent}
  {m n : ℕ}

/-- The file does not lie behind a domain: it is not readable, or its timestamp is not earlier than
the last one of the domain. -/
def NotBehind (p : String) (h : Host) (k : ClockKind) : Prop :=
  ∀ r, GeneratorState.loadRecord h.files p = .ok r →
    (h.state.domain k).last ≤ r.timestamp.getD Ticks.never

instance (p : String) (h : Host) (k : ClockKind) : Decidable (NotBehind p h k) :=
  match hr : GeneratorState.loadRecord h.files p with
  | .ok r =>
    decidable_of_iff ((h.state.domain k).last ≤ r.timestamp.getD Ticks.never)
      ⟨fun hl _ hr' => Except.ok.inj (hr.symm.trans hr') ▸ hl, fun hb => hb r hr⟩
  | .error _ => .isTrue fun _ hr' => nomatch hr.symm.trans hr'

/-- A state has its own file: it is tied to the file, which is not behind. -/
structure Owns (p : String) (h : Host) : Prop where
  tied : Tied p h
  notBehind (k : ClockKind) : NotBehind p h k

/-- A run of a state on its own file, up to event `n`. All writes succeed. -/
structure OwnRun (p : String) (h : Host) (es : ℕ → StateEvent) (n : ℕ) : Prop where
  start : Owns p h
  own : ∀ m < n, IsOwn p (es m)
  written : ∀ m < n, (h.after es m).writes? (es m) ≠ some false

theorem OwnRun.tied (hr : OwnRun p h es n) (hm : m ≤ n) : Tied p (h.after es m) := by
  induction m with
  | zero => exact hr.start.tied
  | succ m ih => exact tied_step (ih (by omega)) (hr.own m (by omega)) (hr.written m (by omega))

/-- **A load that finds the file not behind is regular.** -/
theorem regularIn_of_attach (ht : Tied p h) (hb : NotBehind p h k) :
    h.RegularIn k (.attach (some p)) := by
  cases hr : GeneratorState.loadRecord h.files p with
  | ok r =>
    refine regularIn_of_kept fun _ => ?_
    obtain ⟨hs, hl⟩ := GeneratorState.domain_restore (ht.of_ok hr).2
      { h.state with path := some p, lastSave := none } h.entropy k
    rw [step, (attach_of_loadRecord hr).2]
    exact ⟨hs, by rw [hl]; exact hb r hr⟩
  | error x =>
    have hc : h.Continues (.attach (some p)) := by
      simp only [Continues, attach, GeneratorState.attach_of_error hr]
    exact regularIn_of_continues hc k

/-- A domain after an event that is no refresh of it: the file is not behind, or both are as they
were. -/
theorem notBehind_step (ht : Tied p h) (he : IsOwn p e) (hw : h.writes? e ≠ some false)
    (hn : h.handedIn k e = none) :
    NotBehind p (h.step e) k ∨
      (h.step e).state.domain k = h.state.domain k ∧ (h.step e).files = h.files := by
  rcases he with he | rfl
  · cases hwr : h.writes? e with
    | some b =>
      obtain rfl : b = true := by simpa [hwr] using hw
      refine Or.inl fun r hr => ?_
      rw [(ht.loadRecord_of_writes hwr).2] at hr
      cases hr
      exact GeneratorState.last_le_latest _ k
    | none => exact Or.inr ⟨domain_step_of_steady he hn, (step_of_writes_none he hwr).1⟩
  · refine Or.inl fun r hr => ?_
    have hr : GeneratorState.loadRecord h.files p = .ok r := hr
    rw [step, (attach_of_loadRecord hr).2, (GeneratorState.domain_restore (ht.of_ok hr).2 _ _ k).2]
    exact Int64.le_refl _

/-- **Where the file is behind a domain**, the pair that the domain remembers was handed out in the
run, and nothing since. -/
theorem notBehind_or_latest (hr : OwnRun p h es n) (hm : m ≤ n) (k : ClockKind) :
    NotBehind p (h.after es m) k ∨ (h.stateTrail es k).Latest m := by
  -- a refresh makes its pair the latest; a write or a load brings file and domain together
  induction m with
  | zero => exact Or.inl (hr.start.notBehind k)
  | succ m ih =>
    cases hp : (h.after es m).handedIn k (es m) with
    | some q =>
      obtain ⟨hl, hs⟩ := (hands_of_handedIn hp).eq
      refine Or.inr ⟨m, Nat.lt_succ_self m, hp.trans ?_, fun x h1 h2 => absurd h1 (by omega)⟩
      exact congrArg some (Prod.ext hl.symm hs.symm)
    | none =>
      rcases notBehind_step (hr.tied (by omega)) (hr.own m (by omega)) (hr.written m (by omega)) hp
        with hb | ⟨hd, hf⟩
      · exact Or.inl hb
      · rcases ih (by omega) with hb | ⟨i, hi, hih, hno⟩
        · refine Or.inl fun r hr => ?_
          rw [after, hf] at hr
          rw [after, hd]
          exact hb r hr
        · refine Or.inr ⟨i, by omega, ?_, fun x h1 h2 => ?_⟩
          · have hc : (h.stateTrail es k).clock (m + 1) = (h.stateTrail es k).clock m := hd
            rw [hc]
            exact hih
          · rcases Nat.lt_succ_iff_lt_or_eq.1 h2 with h2 | rfl
            · exact hno x h1 h2
            · exact hp

/-! ## Another refresh -/

theorem after_congr (hm : ∀ x < m, es x = es' x) : h.after es m = h.after es' m := by
  induction m with
  | zero => rfl
  | succ m ih => rw [after, after, ih fun x hx => hm x (by omega), hm m (Nat.lt_succ_self m)]

/-- The run with a refresh instead of event `m`. -/
def refreshAt (es : ℕ → StateEvent) (m : ℕ) (k : ClockKind) (t : Ticks) (node : Option NodeId) :
    ℕ → StateEvent :=
  Function.update es m (.refresh k t node)

variable {t : Ticks} {node : Option NodeId}

theorem refreshAt_self : refreshAt es m k t node m = .refresh k t node := Function.update_self ..

theorem refreshAt_of_lt {x : ℕ} (hx : x < m) : refreshAt es m k t node x = es x :=
  Function.update_of_ne (by omega) ..

theorem after_refreshAt {x : ℕ} (hx : x ≤ m) :
    h.after (refreshAt es m k t node) x = h.after es x :=
  after_congr fun _ hy => refreshAt_of_lt (by omega)

theorem handed_refreshAt {x : ℕ} (hx : x < m) :
    (h.stateTrail (refreshAt es m k t node) k).handed x = (h.stateTrail es k).handed x := by
  simp only [stateTrail, after_refreshAt hx.le, refreshAt_of_lt hx]

/-- **While no load finds the file behind**, no pair is reused, whatever refresh comes next. -/
theorem neverReused_of_notBehind (hr : OwnRun p h es n)
    (hb : ∀ x < n, es x = .attach (some p) → ∀ k, NotBehind p (h.after es x) k) (hm : m ≤ n)
    (k : ClockKind) (t : Ticks) (node : Option NodeId) :
    (h.stateTrail (refreshAt es m k t node) k).NeverReused m := by
  have hreg : ∀ x ≤ m, (h.stateTrail (refreshAt es m k t node) k).Regular x := by
    intro x hx
    rw [regular_stateTrail, after_refreshAt hx]
    rcases Nat.lt_or_eq_of_le hx with hx | rfl
    · rw [refreshAt_of_lt hx]
      rcases hr.own x (by omega) with hs | ha
      · exact regularIn_of_steady hs k
      · rw [ha]
        exact regularIn_of_attach (hr.tied (by omega)) (hb x (by omega) ha k)
    · rw [refreshAt_self]
      exact regularIn_of_steady rfl k
  exact fun i j q hij hj => Trail.wrapped_of_repeated (fun x _ hx => hreg x (by omega)) hij

/-- After a load that found the file behind, a refresh at the time of the last one gets the same
sequence again. -/
theorem refresh_of_behind (ht : Tied p h) (hb : ¬ NotBehind p h k) :
    ((h.step (.attach (some p))).state.domain k).sequence = (h.state.domain k).sequence ∧
      (refresh k (h.state.domain k).last none (h.step (.attach (some p)))).1 =
        (h.state.domain k).sequence := by
  simp only [NotBehind, not_forall, Int64.not_le] at hb
  obtain ⟨r, hload, hlt⟩ := hb
  -- the load keeps the sequence and sets the clock back
  obtain ⟨hseq, hlast⟩ := GeneratorState.domain_restore (ht.of_ok hload).2
    { h.state with path := some p, lastSave := none } h.entropy k
  rw [← (attach_of_loadRecord hload).2] at hseq hlast
  refine ⟨hseq, (GeneratorState.refresh_fst ..).trans ?_⟩
  rw [ClockState.sequence_refresh, if_neg, ← hseq]
  · rfl
  · have hn : ∀ c : ClockState, c.nodeChanged none = false := fun c => by
      cases hc : c.node <;> simp [ClockState.nodeChanged, hc]
    rw [ClockState.incrementDue, hn, Bool.or_false, decide_eq_true_eq, Int64.not_le]
    exact hlast ▸ hlt

/-- **A load that finds the file behind a domain** lets the next refresh repeat a pair. -/
theorem reused_of_behind (hr : OwnRun p h es n) (hm : m < n) (ha : es m = .attach (some p))
    (hb : ¬ NotBehind p (h.after es m) k) :
    ∃ t, ¬ (h.stateTrail (refreshAt es (m + 1) k t none) k).NeverReused (m + 1) := by
  -- event `i` handed out the pair that the domain remembered before the load
  obtain ⟨i, him, hi, hno⟩ := (notBehind_or_latest hr hm.le k).resolve_left hb
  obtain ⟨hseq, hagain⟩ := refresh_of_behind (hr.tied hm.le) hb
  refine ⟨((h.after es m).state.domain k).last, fun hnever => ?_⟩
  set es' := refreshAt es (m + 1) k ((h.after es m).state.domain k).last none with hes'
  have hstep : h.after es' (m + 1) = (h.after es m).step (.attach (some p)) := by
    rw [after_refreshAt le_rfl, after, ha]
  have hlast : es' (m + 1) = .refresh k ((h.after es m).state.domain k).last none := refreshAt_self
  have h1 : (h.stateTrail es' k).handed i = some (((h.after es m).state.domain k).last,
      ((h.after es m).state.domain k).sequence) := (handed_refreshAt (by omega)).trans hi
  have h2 : (h.stateTrail es' k).handed (m + 1) = some (((h.after es m).state.domain k).last,
      ((h.after es m).state.domain k).sequence) := by
    simp only [stateTrail, hstep, hlast, handedIn, if_true, hagain]
  -- nothing is incremented after event `i`, not even by the last refresh
  have h0 : (h.stateTrail es' k).increments i (m + 1) = 0 := by
    refine Trail.increments_eq_zero fun x hix hx => ?_
    rintro ⟨hsome, hne⟩
    rcases Nat.lt_or_eq_of_le hx with hx | rfl
    · have hnone : (h.stateTrail es k).handed x = none := by
        rcases Nat.lt_or_eq_of_le (Nat.le_of_lt_succ hx) with hx | rfl
        · exact hno x hix hx
        · simp only [stateTrail, ha, handedIn]
      rw [handed_refreshAt hx, hnone] at hsome
      cases hsome
    · refine hne ((hands_of_handedIn h2).eq.2.trans (hseq.symm.trans ?_))
      exact congrArg (fun w => (w.state.domain k).sequence) hstep.symm
  have := (hnever i (m + 1) _ (by omega) le_rfl h1 h2).1
  omega

/-- **When pairs are safe.** In a run of a state on its own file, a pair is handed out twice only
after a full round of the sequence, at any point and whatever refresh comes next there, exactly if
no load finds the file behind a domain. -/
theorem never_reused_iff (hr : OwnRun p h es n) :
    (∀ m < n, es m = .attach (some p) → ∀ k, NotBehind p (h.after es m) k) ↔
      ∀ m ≤ n, ∀ k t node, (h.stateTrail (refreshAt es m k t node) k).NeverReused m := by
  refine ⟨fun hb m hm k t node => neverReused_of_notBehind hr hb hm k t node, ?_⟩
  intro hsafe m hm ha k
  by_contra hb
  obtain ⟨t, ht⟩ := reused_of_behind hr hm ha hb
  exact ht (hsafe (m + 1) hm k t none)

/-! ## A throttled save -/

/-- A host with a new state. -/
def plain : Host := start (.ofScript #[0, 1, 0, 2]) 0 none 0

/-- Loads that find the file behind: the second refresh is not saved, as nothing but the timestamp
is new. -/
def retrying (n : ℕ) : StateEvent :=
  [.attach (some "state.bin"), .refresh .physical 1000 (some 1), .refresh .physical 2000 (some 1),
    .attach (some "state.bin"), .refresh .physical 2000 (some 1)].getD n .save

theorem ownRun_retrying : OwnRun "state.bin" plain retrying 5 := by
  have hs : GeneratorState.loadRecord plain.files "state.bin" =
      .error (.fileNotFound "state.bin") := rfl
  have hb : ∀ k, NotBehind "state.bin" plain k := by
    intro k
    cases k <;> decide
  exact ⟨⟨tied_of_error hs (Or.inl rfl), hb⟩, by decide, by decide⟩

/-- **A pair is handed out twice without any increment.** -/
theorem reused_retrying :
    OwnRun "state.bin" plain retrying 5 ∧
      (plain.stateTrail retrying .physical).handed 2 = some (2000, 1) ∧
      (plain.stateTrail retrying .physical).handed 4 = some (2000, 1) ∧
      (plain.stateTrail retrying .physical).increments 2 4 = 0 :=
  ⟨ownRun_retrying, by decide, by decide, by decide⟩

/-- Pairs are safe up to the second load, and no longer after it. -/
theorem never_reused_iff_retrying :
    (∀ m ≤ 3, ∀ k t node, (plain.stateTrail (refreshAt retrying m k t node) k).NeverReused m) ∧
      ¬ ∀ m ≤ 4, ∀ k t node,
        (plain.stateTrail (refreshAt retrying m k t node) k).NeverReused m := by
  have hr : ∀ n ≤ 5, OwnRun "state.bin" plain retrying n := fun n hn =>
    ⟨ownRun_retrying.start, fun m hm => ownRun_retrying.own m (by omega),
      fun m hm => ownRun_retrying.written m (by omega)⟩
  have hb : ¬ NotBehind "state.bin" (plain.after retrying 3) .physical := by decide
  have hg : ∀ m < 3, retrying m = .attach (some "state.bin") →
      NotBehind "state.bin" (plain.after retrying m) .physical ∧
        NotBehind "state.bin" (plain.after retrying m) .random := by decide
  refine ⟨(never_reused_iff (hr 3 (by omega))).1 fun m hm ha k => ?_, fun hsafe => ?_⟩
  · cases k
    · exact (hg m hm ha).1
    · exact (hg m hm ha).2
  · exact hb ((never_reused_iff (hr 4 (by omega))).2 hsafe 3 (by omega) rfl .physical)

end Host

end UuidForge
