import UuidForge.Proofs.Clock.Answer
import UuidForge.Proofs.Fleet

/-!
# Clocks in a fleet

A clock is kept in a `ClockPlace`: a domain of the generator state, or a generator's own. The run of
a fleet leaves a trail in each place.

* `Fleet.hands_step`: an answer with a stamp hands it out from the clock in its place.
* `Fleet.clockAt_step_of_ne`: no other clock moves.
* `Fleet.regular_trail`: **every event of a run is regular in every place.**
-/

namespace UuidForge

/-- Where a clock is kept. -/
inductive ClockPlace
  /-- A domain of the generator state, for all generators that are bound to it. -/
  | shared (k : ClockKind)
  /-- The clock of generator `i` alone. -/
  | own (i : ℕ)
  deriving DecidableEq, Repr

/-- The place of a clock that generator `i` refreshes. -/
def ClockDomain.place (d : ClockDomain) (i : ℕ) : ClockPlace :=
  match d with
  | shared k => .shared k
  | own _ => .own i

theorem ClockDomain.place_eq_of_kind? {d d' : ClockDomain} (h : d'.kind? = d.kind?) (i : ℕ) :
    d'.place i = d.place i := by
  cases d <;> cases d' <;> cases h <;> rfl

namespace Fleet

/-- The place of the clock that generator `i` refreshes, if it has one. -/
def place? (w : Fleet) (i : ℕ) : Option ClockPlace :=
  (w.generator i).base?.map fun b => b.clock.place i

/-- The clock in a place. Where no generator keeps one, a clock that never moves stands in. -/
def clockAt (w : Fleet) : ClockPlace → ClockState
  | .shared k => w.host.state.domain k
  | .own i =>
    match (w.generator i).base?.map TimeBased.clock with
    | some (.own c) => c
    | _ => ClockState.new 0

/-- What an event hands out from the clock in a place. -/
def handedAt (w : Fleet) (p : ClockPlace) : Event → Option Stamped
  | .ask i r =>
    if w.place? i = some p then
      ((w.generator i).stamp? r w.host).map fun s => (s.time, s.sequence)
    else none
  | .pass .. => none

/-- The UUID that an event returns from a generator whose clock is in a place. -/
def returnedAt (w : Fleet) (p : ClockPlace) : Event → Option Uuid
  | .ask i r => if w.place? i = some p then (w.answer i r).1.1.toOption else none
  | .pass .. => none

/-- **The trail of a run** in a place. -/
def trail (w : Fleet) (es : ℕ → Event) (p : ClockPlace) : Trail where
  clock n := (w.after es n).clockAt p
  handed n := (w.after es n).handedAt p (es n)

variable {w : Fleet} {p : ClockPlace} {i : ℕ} {r : Request} {b : TimeBased} {s : TimeStamp}

theorem clockAt_place (hb : (w.generator i).base? = some b) :
    w.clockAt (b.clock.place i) = b.clock.state w.host := by
  cases hc : b.clock with
  | shared k => rfl
  | own c => simp [ClockDomain.place, clockAt, hb, hc, ClockDomain.state]

theorem clockAt_own_of_kind? {k : ClockKind} (hb : (w.generator i).base? = some b)
    (hk : b.clock.kind? = some k) : w.clockAt (.own i) = ClockState.new 0 := by
  cases hc : b.clock with
  | shared l => simp [clockAt, hb, hc]
  | own c => rw [hc] at hk; cases hk

theorem clockAt_step_own_of_ne {j : ℕ} (h : j ≠ i) :
    (w.step (.ask i r)).clockAt (.own j) = w.clockAt (.own j) := by
  simp only [clockAt, generator_step_of_ne h]

theorem base?_step (h : (w.answer i r).1.2.base? = some b) :
    ((w.step (.ask i r)).generator i).base? = some b := by
  rw [generator_step_self, h]

/-- **A stamp is handed out from the clock in its place.** -/
theorem hands_step (hs : (w.generator i).stamp? r w.host = some s) (hp : w.place? i = some p) :
    (w.clockAt p).Hands (s.time, s.sequence) ((w.step (.ask i r)).clockAt p) := by
  obtain ⟨b, hb, rfl, hb', hh⟩ := Generator.answer_of_stamp? hs
  have hpb : b.clock.place i = p := by simpa [place?, hb] using hp
  -- the generator is still bound to the clock in this place
  have hpb' : (b.stamp w.host).1.2.clock.place i = p := by
    rw [ClockDomain.place_eq_of_kind? (b.kind?_stamp w.host), hpb]
  rw [← hpb, clockAt_place hb, hpb, ← hpb', clockAt_place (base?_step hb')]
  have hw : (w.step (.ask i r)).host = (b.stamp w.host).2 := hh
  rw [hw]
  exact b.hands_stamp w.host

/-- A stamp moves no clock in another place. -/
theorem clockAt_step_of_ne (hs : (w.generator i).stamp? r w.host = some s)
    (hp : w.place? i ≠ some p) : (w.step (.ask i r)).clockAt p = w.clockAt p := by
  obtain ⟨b, hb, rfl, hb', hh⟩ := Generator.answer_of_stamp? hs
  have hpb : b.clock.place i ≠ p := by simpa [place?, hb] using hp
  cases p with
  | shared k =>
    refine (congrArg (·.state.domain k) hh).trans (b.domain_stamp w.host fun hk => hpb ?_)
    exact ClockDomain.place_eq_of_kind? (d := .shared k) hk i
  | own j =>
    by_cases hj : j = i
    · subst hj
      -- the generator that was asked has no clock of its own
      cases hc : b.clock with
      | shared k =>
        have hk : b.clock.kind? = some k := by rw [hc]; rfl
        rw [clockAt_own_of_kind? hb hk,
          clockAt_own_of_kind? (base?_step hb') ((b.kind?_stamp w.host).trans hk)]
      | own c => rw [hc] at hpb; exact absurd rfl hpb
    · exact clockAt_step_own_of_ne hj

theorem clockAt_step_of_no_stamp (hs : (w.generator i).stamp? r w.host = none) :
    (w.step (.ask i r)).clockAt p = w.clockAt p := by
  obtain ⟨hb, hd⟩ := Generator.answer_of_no_stamp hs
  cases p with
  | shared k => exact hd k
  | own j =>
    by_cases hj : j = i
    · subst hj
      simp only [clockAt, generator_step_self]
      rw [answer, hb]
    · exact clockAt_step_own_of_ne hj

/-- **Every event of a run is regular in every place.** -/
theorem regular_trail (w : Fleet) (es : ℕ → Event) (p : ClockPlace) (n : ℕ) :
    (w.trail es p).Regular n := by
  unfold Trail.Regular trail
  simp only [after]
  generalize w.after es n = w
  cases es n with
  | pass wall mono =>
    have hc : (w.step (.pass wall mono)).clockAt p = w.clockAt p := by cases p <;> rfl
    simp only [handedAt, hc]
    exact ClockState.Kept.refl _
  | ask i r =>
    cases hs : (w.generator i).stamp? r w.host with
    | none =>
      simp only [handedAt, hs, Option.map_none, ite_self, clockAt_step_of_no_stamp hs]
      exact ClockState.Kept.refl _
    | some s =>
      by_cases hp : w.place? i = some p
      · simp only [handedAt, hs, if_pos hp, Option.map_some]
        exact hands_step hs hp
      · simp only [handedAt, if_neg hp, clockAt_step_of_ne hs hp]
        exact ClockState.Kept.refl _

end Fleet

end UuidForge
