import UuidForge.Proofs.Fleet
import UuidForge.Proofs.UnixTime.Await

/-!
# Counters in a fleet

A counter of version 7 is the one of the host, or a generator's own. In a run its generators read
their clocks and take values from it; everybody else leaves it alone.

* `Fleet.log`: the readings of all generators on a counter, oldest first.
* `Fleet.counterAt_step`: **an event takes one value from the counter in a place and returns its
  UUID, or leaves that counter alone and returns none.**
-/

namespace UuidForge

/-- Where a counter is kept. -/
inductive CounterPlace
  /-- The counter of the host. -/
  | shared
  /-- The counter of generator `i` alone. -/
  | own (i : ℕ)
  deriving DecidableEq, Repr

/-- The place of a counter that generator `i` uses. -/
def CounterDomain.place (d : CounterDomain) (i : ℕ) : CounterPlace :=
  if d.isShared then .shared else .own i

namespace Generator

/-- The generator of version 7, if it is one. -/
def unixTime? : Generator → Option UnixTime
  | unixTime g => some g
  | _ => none

/-- **Other generators leave the counter of the host alone.** -/
theorem counter_answer_of_none {g : Generator} (hg : g.unixTime? = none) (r : Request) (h : Host) :
    (g.answer r h).1.2.unixTime? = none ∧ (g.answer r h).2.counter = h.counter := by
  have hr : ∀ k t node, Keeps Host.counter (Host.refresh k t node) := fun _ _ _ _ => rfl
  cases g with
  | empty | max | nameBased => cases r <;> exact ⟨rfl, rfl⟩
  | random =>
    cases r with
    | fresh => exact ⟨rfl, Keeps.drawUuid lasting_counter h⟩
    | named | dce => exact ⟨rfl, rfl⟩
  | timeBased g =>
    cases r with
    | fresh => exact ⟨rfl, Keeps.stamp lasting_counter hr g h⟩
    | named | dce => exact ⟨rfl, rfl⟩
  | dceSecurity g =>
    cases r with
    | fresh | dce => exact ⟨rfl, Keeps.nextDce lasting_counter hr g _ _ h⟩
    | named => exact ⟨rfl, rfl⟩
  | custom g =>
    cases r with
    | fresh => exact ⟨rfl, Keeps.nextCustom lasting_counter g h⟩
    | named | dce => exact ⟨rfl, rfl⟩
  | unixTime g => cases hg

end Generator

namespace Fleet

/-- The place of the counter that generator `i` uses, if it is of version 7. -/
def counterPlace? (w : Fleet) (i : ℕ) : Option CounterPlace :=
  (w.generator i).unixTime?.map fun g => g.counter.place i

/-- The counter in a place. Where no generator keeps one, a fresh counter stands in. -/
def counterAt (w : Fleet) : CounterPlace → Counter
  | .shared => w.host.counter
  | .own i =>
    match (w.generator i).unixTime?.map UnixTime.counter with
    | some (.own k) => k
    | _ => {}

/-- What the generators on the counter in a place read in an event. -/
def readAt (w : Fleet) (p : CounterPlace) : Event → List Ticks
  | .ask i .fresh =>
    match (w.generator i).unixTime? with
    | some g => if g.counter.place i = p then g.readings w.host else []
    | none => []
  | _ => []

/-- The UUID that an event returns from a generator on the counter in a place. -/
def countedAt (w : Fleet) (p : CounterPlace) : Event → Option Uuid
  | .ask i r => if w.counterPlace? i = some p then (w.answer i r).1.1.toOption else none
  | .pass .. => none

/-- **The readings of the generators on a counter** in the first `n` events, rejected ones
included. -/
def log (w : Fleet) (es : ℕ → Event) (p : CounterPlace) : ℕ → List Ticks
  | 0 => []
  | n + 1 => w.log es p n ++ (w.after es n).readAt p (es n)

/-- An event takes one value from a counter, and returns a UUID of that value if any. -/
def Takes (rs : List Ticks) (k k' : Counter) (returned : Option Uuid) : Prop :=
  ∃ v u, ∃ t ∈ rs, ∃ seed, k.value? (Candidate.ofTicks t seed) = some v ∧ k'.last = some v ∧
    ∀ x, returned = some x → v.uuid u = .ok x

variable {w : Fleet} {p : CounterPlace} {i : ℕ} {r : Request} {g : UnixTime}

theorem counterAt_place (hg : (w.generator i).unixTime? = some g) :
    w.counterAt (g.counter.place i) = g.counter.counter w.host := by
  cases hc : g.counter with
  | shared => rfl
  | own k => simp [CounterDomain.place, CounterDomain.isShared, counterAt, hg, hc,
      CounterDomain.counter]

theorem counterAt_own_of_isShared (hg : (w.generator i).unixTime? = some g)
    (hs : g.counter.isShared) : w.counterAt (.own i) = {} := by
  cases hc : g.counter with
  | shared => simp [counterAt, hg, hc]
  | own k => rw [hc] at hs; cases hs

theorem counterAt_step_own_of_ne {j : ℕ} (h : j ≠ i) :
    (w.step (.ask i r)).counterAt (.own j) = w.counterAt (.own j) := by
  simp only [counterAt, generator_step_of_ne h]

/-- An answer that moves neither the shared counter nor the generator's moves none. -/
theorem counterAt_step_of_answer (hg : (w.answer i r).1.2.unixTime? = (w.generator i).unixTime?)
    (hc : (w.answer i r).2.counter = w.host.counter) :
    (w.step (.ask i r)).counterAt p = w.counterAt p := by
  cases p with
  | shared => exact hc
  | own j =>
    by_cases hj : j = i
    · subst hj
      simp only [counterAt, generator_step_self, hg]
    · exact counterAt_step_own_of_ne hj

/-! ## New UUIDs of version 7 -/

theorem answer_unixTime (hg : w.generator i = .unixTime g) : w.answer i .fresh =
    (((g.next w.host).1.1, .unixTime (g.next w.host).1.2), (g.next w.host).2) := by
  rw [answer, hg]
  rfl

theorem unixTime?_step (hg : w.generator i = .unixTime g) :
    ((w.step (.ask i .fresh)).generator i).unixTime? = some (g.next w.host).1.2 := by
  rw [generator_step_self, answer_unixTime hg]
  rfl

theorem last_counterAt_step {last : Option CounterValue} (hg : w.generator i = .unixTime g)
    (hm : g.Moved w.host (g.next w.host).1.2 (g.next w.host).2 last) :
    ((w.step (.ask i .fresh)).counterAt (g.counter.place i)).last = last := by
  have hp : g.counter.place i = (g.next w.host).1.2.counter.place i := by
    rw [CounterDomain.place, CounterDomain.place, hm.isShared]
  have hh : (w.step (.ask i .fresh)).host = (g.next w.host).2 :=
    congrArg Prod.snd (answer_unixTime hg)
  rw [hp, counterAt_place (unixTime?_step hg), hh]
  exact hm.last

/-- A new UUID leaves every counter alone that is not the generator's. -/
theorem counterAt_step_of_ne {last : Option CounterValue}
    (hg : w.generator i = .unixTime g) (hp : g.counter.place i ≠ p)
    (hm : g.Moved w.host (g.next w.host).1.2 (g.next w.host).2 last) :
    (w.step (.ask i .fresh)).counterAt p = w.counterAt p := by
  have hu : (w.generator i).unixTime? = some g := by rw [hg]; rfl
  cases hs : g.counter.isShared with
  | true =>
    cases p with
    | shared => rw [CounterDomain.place, if_pos hs] at hp; exact absurd rfl hp
    | own j =>
      by_cases hj : j = i
      · subst hj
        rw [counterAt_own_of_isShared hu hs,
          counterAt_own_of_isShared (unixTime?_step hg) (hm.isShared.trans hs)]
      · exact counterAt_step_own_of_ne hj
  | false =>
    cases p with
    | shared => exact (congrArg (·.2.counter) (answer_unixTime hg)).trans (hm.frame hs)
    | own j =>
      have hj : j ≠ i := by
        rintro rfl
        rw [CounterDomain.place, if_neg (by simp [hs])] at hp
        exact hp rfl
      exact counterAt_step_own_of_ne hj

/-- **A new UUID of version 7** takes one value from the generator's counter, or fails and leaves
the counter alone. -/
theorem counterAt_step_fresh (hg : w.generator i = .unixTime g) :
    Takes (w.readAt (g.counter.place i) (.ask i .fresh)) (w.counterAt (g.counter.place i))
        ((w.step (.ask i .fresh)).counterAt (g.counter.place i))
        (w.countedAt (g.counter.place i) (.ask i .fresh)) ∨
      (w.step (.ask i .fresh)).counterAt (g.counter.place i) = w.counterAt (g.counter.place i) ∧
        w.countedAt (g.counter.place i) (.ask i .fresh) = none := by
  have hu : (w.generator i).unixTime? = some g := by rw [hg]; rfl
  have hr : w.countedAt (g.counter.place i) (.ask i .fresh) = (g.next w.host).1.1.toOption := by
    simp [countedAt, counterPlace?, hu, answer_unixTime hg]
  rw [hr, counterAt_place hu]
  rcases g.next_spec w.host with ⟨v, u, t, ht, seed, hv, hn, hm⟩ | ⟨hn, hm⟩
  · refine Or.inl ⟨v, u, t, ?_, seed, hv, last_counterAt_step hg hm, fun x hx => ?_⟩
    · simpa [readAt, hu] using ht
    · rw [hn] at hx
      cases hx' : v.uuid u with
      | error e => rw [hx'] at hx; cases hx
      | ok y => rw [hx'] at hx; cases hx; rfl
  · refine Or.inr ⟨congrArg Counter.mk (last_counterAt_step hg hm), ?_⟩
    rw [hn]
    rfl

/-- **An event takes one value from the counter in a place**, or leaves it alone and returns no UUID
of it. -/
theorem counterAt_step (w : Fleet) (p : CounterPlace) (e : Event) :
    Takes (w.readAt p e) (w.counterAt p) ((w.step e).counterAt p) (w.countedAt p e) ∨
      (w.step e).counterAt p = w.counterAt p ∧ w.countedAt p e = none := by
  cases e with
  | pass wall mono => exact Or.inr ⟨by cases p <;> rfl, rfl⟩
  | ask i r =>
    cases hg : w.generator i with
    | unixTime g =>
      have hu : (w.generator i).unixTime? = some g := by rw [hg]; rfl
      cases r with
      | fresh =>
        by_cases hp : g.counter.place i = p
        · exact hp ▸ counterAt_step_fresh hg
        · refine Or.inr ⟨?_, by simp [countedAt, counterPlace?, hu, hp]⟩
          rcases g.next_spec w.host with ⟨_, _, _, _, _, _, _, hm⟩ | ⟨_, hm⟩
          · exact counterAt_step_of_ne hg hp hm
          · exact counterAt_step_of_ne hg hp hm
      | named | dce =>
        -- a generator of version 7 refuses, and stays as it is
        refine Or.inr ⟨counterAt_step_of_answer ?_ ?_, ?_⟩
        · rw [answer, hg]
          rfl
        · rw [answer, hg]
          rfl
        · simp only [countedAt, answer, hg]
          split <;> rfl
    | empty | max | random | timeBased | dceSecurity | nameBased | custom =>
      have hn : (w.generator i).unixTime? = none := by rw [hg]; rfl
      obtain ⟨hg', hc⟩ := Generator.counter_answer_of_none hn r w.host
      exact Or.inr ⟨counterAt_step_of_answer (hg'.trans hn.symm) hc,
        by simp [countedAt, counterPlace?, hn]⟩

end Fleet

end UuidForge
