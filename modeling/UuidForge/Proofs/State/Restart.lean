import UuidForge.Proofs.State.Run

/-!
# Clock sequences across restarts

The file of a state keeps less than the state: one timestamp for both domains, and one random node
id. What it keeps is enough, since a clock may be found ahead of where it was left, but never
behind, and with the sequence it had.

* `Host.unique_across_restarts`: **whatever happens between two refreshes of a domain, as long as
  every state that ends is written and loaded again, the same pair takes a full round of the
  sequence.**
-/

namespace UuidForge.Host

variable {i j : ℕ}

/-- **Uniqueness across restarts.** For every history in which each event continues the state, with
any number of refreshes of both domains and of restarts: if two refreshes of a domain hand out the
same pair, the increments between them are a positive multiple of the number of sequences. -/
theorem unique_across_restarts (h : Host) (es : ℕ → StateEvent) (k : ClockKind) (hij : i < j)
    (hc : ∀ n, i ≤ n → n ≤ j → (h.after es n).Continues (es n)) {p : Stamped}
    (hi : (h.stateTrail es k).handed i = some p) (hj : (h.stateTrail es k).handed j = some p) :
    0 < (h.stateTrail es k).increments i j ∧ sequenceCount ∣ (h.stateTrail es k).increments i j :=
  Trail.wrapped_of_repeated (fun n hin hnj => regularIn_of_continues (hc n hin hnj) k) hij hi hj

/-! ## A clock that stands still across a restart -/

/-- A host whose state is attached to a file that is not there yet. -/
def filed : Host :=
  let h := start (.ofScript #[]) 0 none 0
  { h with state := { h.state with path := some "state.bin" } }

/-- The state is started again after the first of many refreshes at time zero. -/
def restarting : ℕ → StateEvent
  | 1 => .restart .dropped
  | _ => .refresh .physical 0 none

theorem domain_restarting (n : ℕ) : (filed.after restarting (n + 2)).state.domain .physical =
    { last := 0, sequence := BitVec.ofNat 14 n, node := none } := by
  induction n with
  | zero => decide
  | succ n ih =>
    have hs : (filed.after restarting (n + 3)).state.domain .physical =
        (((filed.after restarting (n + 2)).state.domain .physical).refresh 0 none).2 :=
      GeneratorState.domain_refresh_self ..
    rw [hs, ih, ClockState.refresh]
    simp [ClockState.incrementDue, BitVec.ofNat_add]

theorem handed_restarting (n : ℕ) :
    (filed.stateTrail restarting .physical).handed (n + 2) = some (0, BitVec.ofNat 14 (n + 1)) := by
  have hs := (filed.after restarting (n + 2)).hands_step .physical 0 none
  have hd := domain_restarting (n + 1)
  exact congrArg (fun s => some (0, s)) (hs.eq.2.symm.trans (congrArg ClockState.sequence hd))

/-- The pair from before the restart comes up again after a full round of the sequence. -/
theorem unique_across_restarts_standing :
    (filed.stateTrail restarting .physical).handed 0 = some (0, 0) ∧
      (filed.stateTrail restarting .physical).handed 16385 = some (0, 0) ∧
      sequenceCount ∣ (filed.stateTrail restarting .physical).increments 0 16385 := by
  have h0 : (filed.stateTrail restarting .physical).handed 0 = some (0, 0) := by decide
  have h1 := handed_restarting 16383
  have hc : ∀ n, 0 ≤ n → n ≤ 16385 → (filed.after restarting n).Continues (restarting n) := by
    intro n _ _
    match n with
    | 0 => trivial
    | 1 => exact (by decide : (filed.after restarting 1).endsWell .dropped = true)
    | n + 2 => trivial
  exact ⟨h0, h1, (unique_across_restarts filed restarting .physical (by decide) hc h0 h1).2⟩

end UuidForge.Host
