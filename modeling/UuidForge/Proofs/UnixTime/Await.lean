import UuidForge.Proofs.Counter.Order
import UuidForge.Proofs.Frame

/-!
# Waiting for a counter

A generator of version 7 reads its clock until its counter has a value. Readings that the counter
rejects leave it as it was, so the value comes from a single step of the counter.

* `UnixTime.readings`: the readings that the next UUID takes, rejected ones included.
* `UnixTime.await_spec`: a value comes from one step on one of the readings.
* `UnixTime.next_spec`: **so does the next UUID**; an error leaves the counter alone or comes from a
  value out of range.
-/

namespace UuidForge

namespace CounterDomain

variable (d : CounterDomain) (c : Candidate) (h : Host)

/-- The counter behind a counter domain. -/
def counter (h : Host) : CounterDomain → Counter
  | shared => h.counter
  | own k => k

/-- The counter is the one that generators share. -/
def isShared : CounterDomain → Bool
  | shared => true
  | own _ => false

theorem value_next : (d.next c h).1.1 = (d.counter h).value? c := by
  cases d <;> rfl

theorem counter_next : (d.next c h).1.2.counter (d.next c h).2 = ((d.counter h).next c).2 := by
  cases d <;> rfl

theorem isShared_next : (d.next c h).1.2.isShared = d.isShared := by
  cases d <;> rfl

theorem hostCounter_next (hd : d.isShared = false) : (d.next c h).2.counter = h.counter := by
  cases d with
  | shared => cases hd
  | own k => rfl

theorem counter_congr {h h' : Host} (hc : h'.counter = h.counter) : d.counter h' = d.counter h := by
  cases d with
  | shared => exact hc
  | own k => rfl

end CounterDomain

namespace UnixTime

/-- One reading, and what the counter says to it. -/
def attempt (seed : BitVec 16) (g : UnixTime) : OnHost (Option CounterValue × UnixTime) := do
  let (t, source) ← g.source.read
  let (v, counter) ← g.counter.next (Candidate.ofTicks t seed)
  return (v, { g with source, counter })

theorem await_succ (seed : BitVec 16) (n : ℕ) (g : UnixTime) (h : Host) :
    await seed (n + 1) g h =
      match (attempt seed g h).1.1 with
      | some v => ((some v, (attempt seed g h).1.2), (attempt seed g h).2)
      | none => await seed n (attempt seed g h).1.2 (attempt seed g h).2 := by
  simp only [await, attempt, bind, StateT.bind]
  obtain ⟨⟨t, source⟩, h⟩ := g.source.read h
  dsimp only
  obtain ⟨⟨v, counter⟩, h⟩ := g.counter.next (Candidate.ofTicks t seed) h
  cases v <;> rfl

/-- The readings until the counter has a value, at most the given number of them. -/
def readingsOf (seed : BitVec 16) : ℕ → UnixTime → Host → List Ticks
  | 0, _, _ => []
  | n + 1, g, h =>
    (g.source.read h).1.1 ::
      match (attempt seed g h).1.1 with
      | some _ => []
      | none => readingsOf seed n (attempt seed g h).1.2 (attempt seed g h).2

/-- **The readings that the next UUID takes**, those that the counter rejects included. -/
def readings (g : UnixTime) (h : Host) : List Ticks :=
  readingsOf (seedOf (Host.drawUuid h).1) g.patience g (Host.drawUuid h).2

/-- A generator and its host afterwards: the counter holds a last value, and the shared counter has
not moved unless it is the generator's. -/
structure Moved (g : UnixTime) (h : Host) (g' : UnixTime) (h' : Host) (last : Option CounterValue) :
    Prop where
  isShared : g'.counter.isShared = g.counter.isShared
  last : (g'.counter.counter h').last = last
  frame : g.counter.isShared = false → h'.counter = h.counter

variable {g g' g'' : UnixTime} {h h' h'' : Host} {seed : BitVec 16}

theorem Moved.trans {last last' : Option CounterValue} (m : g.Moved h g' h' last)
    (m' : g'.Moved h' g'' h'' last') : g.Moved h g'' h'' last' :=
  ⟨m'.isShared.trans m.isShared, m'.last, fun hs =>
    (m'.frame (m.isShared.trans hs)).trans (m.frame hs)⟩

/-- **One attempt is one step of the counter.** -/
theorem attempt_spec (seed : BitVec 16) (g : UnixTime) (h : Host) :
    (attempt seed g h).1.1 =
        (g.counter.counter h).value? (Candidate.ofTicks (g.source.read h).1.1 seed) ∧
      g.Moved h (attempt seed g h).1.2 (attempt seed g h).2
        ((attempt seed g h).1.1 <|> (g.counter.counter h).last) := by
  have hk := Keeps.readTime lasting_counter g.source h
  rw [← g.counter.counter_congr hk]
  have ha : attempt seed g h =
      let a := g.source.read h
      let b := g.counter.next (Candidate.ofTicks a.1.1 seed) a.2
      ((b.1.1, { g with source := a.1.2, counter := b.1.2 }), b.2) := rfl
  rw [ha]
  generalize g.source.read h = a at hk
  have hv := g.counter.value_next (Candidate.ofTicks a.1.1 seed) a.2
  refine ⟨hv, g.counter.isShared_next _ _, ?_, fun hs => ?_⟩
  · dsimp only
    rw [hv, CounterDomain.counter_next]
    rfl
  · exact (g.counter.hostCounter_next _ _ hs).trans hk

/-- **A value comes from one step of the counter**, on one of the readings. -/
theorem await_spec (seed : BitVec 16) (n : ℕ) (g : UnixTime) (h : Host) :
    (∀ v, (await seed n g h).1.1 = some v → ∃ t ∈ readingsOf seed n g h,
      (g.counter.counter h).value? (Candidate.ofTicks t seed) = some v) ∧
    g.Moved h (await seed n g h).1.2 (await seed n g h).2
      ((await seed n g h).1.1 <|> (g.counter.counter h).last) := by
  induction n generalizing g h with
  | zero => exact ⟨nofun, rfl, rfl, fun _ => rfl⟩
  | succ n ih =>
    obtain ⟨hv, hm⟩ := attempt_spec seed g h
    rw [await_succ, readingsOf]
    cases ha : (attempt seed g h).1.1 with
    | some v =>
      rw [ha] at hv hm
      refine ⟨fun x hx => ⟨_, List.mem_cons_self, ?_⟩, hm⟩
      cases hx
      exact hv.symm
    | none =>
      rw [ha] at hv hm
      obtain ⟨hv', hm'⟩ := ih (attempt seed g h).1.2 (attempt seed g h).2
      -- the rejected reading leaves the counter as it was
      have hk : (attempt seed g h).1.2.counter.counter (attempt seed g h).2 =
          g.counter.counter h := congrArg Counter.mk hm.last
      rw [hk] at hv' hm'
      refine ⟨fun v hx => ?_, hm.trans hm'⟩
      obtain ⟨t, ht, hv⟩ := hv' v hx
      exact ⟨t, List.mem_cons_of_mem _ ht, hv⟩

/-- The octets are drawn first; then the generator waits for a value. -/
theorem next_eq (g : UnixTime) (h : Host) : g.next h =
    let a := await (seedOf (Host.drawUuid h).1) g.patience g (Host.drawUuid h).2
    ((match a.1.1 with
      | some v => v.uuid (Host.drawUuid h).1
      | none => .error .clockStalled, a.1.2), a.2) := by
  simp only [next, bind, StateT.bind]
  obtain ⟨u, h₁⟩ := Host.drawUuid h
  dsimp only
  obtain ⟨⟨v, g'⟩, h'⟩ := await (seedOf u) g.patience g h₁
  cases v <;> rfl

/-- **The next UUID comes from one step of the counter** on one of the readings. Otherwise there is
none and the counter stays as it was. -/
theorem next_spec (g : UnixTime) (h : Host) :
    (∃ v u, ∃ t ∈ g.readings h, ∃ seed,
      (g.counter.counter h).value? (Candidate.ofTicks t seed) = some v ∧
      (g.next h).1.1 = v.uuid u ∧ g.Moved h (g.next h).1.2 (g.next h).2 (some v)) ∨
    (g.next h).1.1 = .error .clockStalled ∧
      g.Moved h (g.next h).1.2 (g.next h).2 (g.counter.counter h).last := by
  have hk := Keeps.drawUuid lasting_counter h
  obtain ⟨hv, hm⟩ := await_spec (seedOf (Host.drawUuid h).1) g.patience g (Host.drawUuid h).2
  rw [g.counter.counter_congr hk] at hv hm
  -- the octets are drawn first, which does not touch the counter
  have hd : g.Moved h g (Host.drawUuid h).2 (g.counter.counter h).last :=
    ⟨rfl, congrArg Counter.last (g.counter.counter_congr hk), fun _ => hk⟩
  unfold readings
  rw [next_eq]
  generalize await (seedOf (Host.drawUuid h).1) g.patience g (Host.drawUuid h).2 = a at hv hm
  obtain ⟨⟨v, g'⟩, h'⟩ := a
  cases v with
  | some v =>
    obtain ⟨t, ht, hv⟩ := hv v rfl
    exact Or.inl ⟨v, _, t, ht, _, hv, rfl, hd.trans hm⟩
  | none => exact Or.inr ⟨rfl, hd.trans hm⟩

end UnixTime

end UuidForge
