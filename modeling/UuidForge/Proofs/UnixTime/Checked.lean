import UuidForge.Proofs.Time.Reading
import UuidForge.Proofs.UnixTime.Await
import UuidForge.Proofs.UnixTime.Layout

/-!
# The reach of version 7

Splitting a reading into milliseconds and a clock, and telling how far a reading lies back, keep
far from the ends of the range. The way back from milliseconds to ticks does not: the first
millisecond of the range begins before the first tick.

* `Counter.InUse`: a counter that was given any number of readings.
* `Candidate.ofTicks?_eq`, `Counter.next?_eq`: **splitting and counting never overflow.**
* `CounterValue.fits_ticks_iff`: the ticks of a value overflow in that millisecond alone.
* `UnixTime.succeeds_next?`: **what can overflow in the next UUID** is the reading of the system
  clock and the ticks of the value.
* `CounterValue.uuid_eq_error_iff`: **a value off the scale is refused**, overflow or not.
-/

namespace UuidForge

open Ticks (Fits)

/-! ## Readings -/

/-- Splits a reading like `ofTicks`, with checked arithmetic. -/
def Candidate.ofTicks? (t : Ticks) (seed : BitVec 16) : Option Candidate := do
  let milliseconds ← Ticks.ofInt? (t.toInt / 10000)
  let fraction ← Ticks.ofInt? (t.toInt % 10000)
  let scaled ← Ticks.ofInt? (fraction.toInt * 4096)
  let clock ← Ticks.ofInt? (scaled.toInt / 10000)
  return { milliseconds, clock := BitVec.ofInt 16 clock.toInt, seed }

/-- **Splitting a reading never overflows.** -/
theorem Candidate.ofTicks?_eq (t : Ticks) (seed : BitVec 16) :
    ofTicks? t seed = some (ofTicks t seed) := by
  have ht := t.fits_toInt
  obtain ⟨hms, hfraction, hscaled, hclock⟩ : Fits (t.toInt / 10000) ∧ Fits (t.toInt % 10000) ∧
      Fits (t.toInt % 10000 * 4096) ∧ Fits (t.toInt % 10000 * 4096 / 10000) := by
    unfold Fits at ht ⊢
    omega
  have hnat : t.toInt % 10000 * 4096 / 10000 =
      (((t.toInt % 10000).toNat * 4096 / 10000 : ℕ) : ℤ) := by omega
  unfold ofTicks? ofTicks
  simp only [Option.bind_eq_bind, Option.bind_some, Ticks.ofInt?_of_fits hms,
    Ticks.ofInt?_of_fits hfraction, Ticks.toInt_ofInt hfraction, Ticks.ofInt?_of_fits hscaled,
    Ticks.toInt_ofInt hscaled, Ticks.ofInt?_of_fits hclock, Ticks.toInt_ofInt hclock]
  rw [hnat, BitVec.ofInt_natCast]
  rfl

/-! ## Counting -/

namespace CounterValue

variable {p v x : CounterValue} {s t : Ticks} {u : Uuid}

/-- The value after another, like `after`, with a checked difference. -/
def after? (p v : CounterValue) : Option (Option CounterValue) :=
  if ¬ p.SameOrLater v then some (some v)
  else do
    let behind ← Ticks.sub? p.milliseconds v.milliseconds
    return if behind > rollbackAllowance then some v
      else if p.sequence < 0x3fff then some { p with sequence := p.sequence + 1 }
      else if p.clock < 0xfff then some { p with clock := p.clock + 1, sequence := v.sequence }
      else none

/-- **Telling how far a reading lies back never overflows.** -/
theorem after?_eq (hp : p.ReadAt s) (hv : v.ReadAt t) : p.after? v = some (p.after v) := by
  have hsub : Ticks.sub? p.milliseconds v.milliseconds = some (p.milliseconds - v.milliseconds) :=
    (Ticks.succeeds_sub? _ _).eq_some (fits_sub_of_readAt hp hv)
  unfold after? after
  rw [hsub]
  split <;> rfl

end CounterValue

namespace Counter

variable {k : Counter} {v : CounterValue} {t : Ticks} {seed : BitVec 16}

/-- **A counter in use** was new and has been given any number of readings. -/
inductive InUse : Counter → Prop
  | new : InUse {}
  | next {k : Counter} (t : Ticks) (seed : BitVec 16) :
      InUse k → InUse (k.next (Candidate.ofTicks t seed)).2

/-- Takes the next value like `next`, with checked arithmetic. -/
def next? (k : Counter) (c : Candidate) : Option (Option CounterValue × Counter) := do
  let value ←
    match k.last with
    | some p => p.after? c.adopted
    | none => some (some c.adopted)
  return (value, ⟨value <|> k.last⟩)

theorem readAt_value (hk : ∀ p, k.last = some p → ∃ s, p.ReadAt s)
    (hv : k.value? (Candidate.ofTicks t seed) = some v) : ∃ s, v.ReadAt s := by
  cases hlast : k.last with
  | none => exact ⟨t, readAt_of_value? hlast hv⟩
  | some p =>
    rw [value?, hlast] at hv
    rcases CounterValue.milliseconds_of_after hv with hms | hms
    · obtain ⟨s, hs⟩ := hk p hlast
      exact ⟨s, (congrArg Int64.toInt hms).trans hs⟩
    · exact ⟨t, (congrArg Int64.toInt hms).trans (Candidate.readAt_adopted t seed)⟩

/-- **The milliseconds of a counter in use** are those of some reading. -/
theorem InUse.readAt (hk : k.InUse) : ∀ v, k.last = some v → ∃ t, v.ReadAt t := by
  induction hk with
  | new => exact nofun
  | @next k t seed _ ih =>
    intro v hv
    cases hvalue : k.value? (Candidate.ofTicks t seed) with
    | none =>
      rw [next_of_value?_eq_none hvalue] at hv
      exact ih v hv
    | some x =>
      have hx : (k.next (Candidate.ofTicks t seed)).2.last = some x := by
        rw [Counter.next, hvalue]
        rfl
      cases hx.symm.trans hv
      exact readAt_value ih hvalue

/-- **Counting never overflows.** -/
theorem next?_eq (hk : k.InUse) (t : Ticks) (seed : BitVec 16) :
    k.next? (Candidate.ofTicks t seed) = some (k.next (Candidate.ofTicks t seed)) := by
  unfold next? Counter.next value?
  cases hlast : k.last with
  | none => rfl
  | some p =>
    obtain ⟨s, hs⟩ := hk.readAt p hlast
    dsimp only
    rw [CounterValue.after?_eq hs (Candidate.readAt_adopted t seed)]
    rfl

end Counter

/-! ## Laying out -/

/-- Refuses what lies off a scale, with checked arithmetic: the last point of time on the scale is
computed from its count, and both ends are taken to parts. -/
def TimeScale.refusal? (s : TimeScale) : Option Error := do
  let first ← Ticks.ofInt? s.epoch
  let unit ← Ticks.ofInt? s.unit
  let count ← Ticks.ofInt? (s.size - 1)
  let span ← count.mul? unit
  let start ← first.add? span
  let rest ← unit.sub? 1
  let last ← start.add? rest
  let _ ← first.parts?
  let _ ← last.parts?
  return .outOfRange (.timestamp first.toInt last.toInt)

/-- **The ends of the scale of milliseconds are told without an overflow.** -/
theorem TimeScale.refusal?_unixMilliseconds : unixMilliseconds.refusal? =
    some (.outOfRange (.timestamp unixMilliseconds.first unixMilliseconds.last)) := by
  decide

namespace CounterValue

variable {v : CounterValue} {t : Ticks} {u : Uuid}

/-- The UUID of a value like `uuid`, with checked arithmetic. -/
def uuid? (v : CounterValue) (u : Uuid) : Option (Except Error Uuid) := do
  let t ← Ticks.mul? v.milliseconds Ticks.perMillisecond
  match TimeScale.unixMilliseconds.count? t with
  | some n => return .ok (v.layOut u n)
  | none => return .error (← TimeScale.unixMilliseconds.refusal?)

theorem count_of_milliseconds
    (h : 0 ≤ v.milliseconds.toInt ∧ v.milliseconds.toInt < 281474976710656) :
    TimeScale.unixMilliseconds.count? (v.milliseconds * Ticks.perMillisecond) =
      some v.milliseconds.toInt.toNat := by
  have hunit : Ticks.perMillisecond.toInt = 10000 := by decide
  have hfits : Fits (v.milliseconds.toInt * Ticks.perMillisecond.toInt) := by
    rw [hunit]
    unfold Fits
    omega
  have hsize : TimeScale.unixMilliseconds.size = 281474976710656 := rfl
  rw [TimeScale.count?_eq_some_iff, Ticks.toInt_mul hfits, hunit, hsize]
  simp only [TimeScale.unixMilliseconds]
  omega

theorem uuid_of_count_eq_none
    (hn : TimeScale.unixMilliseconds.count? (v.milliseconds * Ticks.perMillisecond) = none) :
    v.uuid u = .error (.outOfRange
      (.timestamp TimeScale.unixMilliseconds.first TimeScale.unixMilliseconds.last)) := by
  have ht : (Layout.ofVersion .v7).time = some ⟨.unixMilliseconds, 0, [Slice.leading]⟩ := rfl
  unfold uuid Layout.setTimestamp TimeField.write
  simp only [ht, hn]
  rfl

/-- **The UUID of a value is laid out without an overflow** exactly if its ticks fit. -/
theorem succeeds_uuid? (v : CounterValue) (u : Uuid) :
    Succeeds (v.uuid? u) (Fits (v.milliseconds.toInt * 10000)) (v.uuid u) := by
  have hunit : Ticks.perMillisecond.toInt = 10000 := by decide
  have hticks := Ticks.succeeds_mul? v.milliseconds Ticks.perMillisecond
  rw [hunit] at hticks
  refine hticks.andThen fun _ => ?_
  cases hn : TimeScale.unixMilliseconds.count? (v.milliseconds * Ticks.perMillisecond) with
  | some n => exact congrArg some (uuid_eq_ok_iff.2 ⟨n, hn, rfl⟩).symm
  | none =>
    rw [uuid_of_count_eq_none hn, TimeScale.refusal?_unixMilliseconds]
    rfl

/-- **The ticks of a value overflow** exactly in the first millisecond of the range. -/
theorem fits_ticks_iff (hv : v.ReadAt t) :
    Fits (v.milliseconds.toInt * 10000) ↔ v.milliseconds.toInt ≠ -922337203685478 := by
  have hlo := t.le_toInt
  have hhi := t.toInt_lt
  unfold ReadAt Ticks.millisecond at hv
  unfold Fits
  omega

/-- **A value off the scale is refused**, whether its ticks overflow or not. -/
theorem uuid_eq_error_iff (hv : v.ReadAt t) {e : Error} : v.uuid u = .error e ↔
    ¬ (0 ≤ v.milliseconds.toInt ∧ v.milliseconds.toInt < 281474976710656) ∧
      e = .outOfRange
        (.timestamp TimeScale.unixMilliseconds.first TimeScale.unixMilliseconds.last) := by
  cases hn : TimeScale.unixMilliseconds.count? (v.milliseconds * Ticks.perMillisecond) with
  | some n =>
    obtain ⟨hms, hlt⟩ := count_of_readAt hv hn
    rw [(uuid_eq_ok_iff (u := u)).2 ⟨n, hn, rfl⟩]
    exact iff_of_false nofun fun h => h.1 ⟨by omega, by omega⟩
  | none =>
    have hout : ¬ (0 ≤ v.milliseconds.toInt ∧ v.milliseconds.toInt < 281474976710656) := by
      intro hms
      have hcount := count_of_milliseconds hms
      rw [hn] at hcount
      cases hcount
    rw [uuid_of_count_eq_none hn, Except.error.injEq, eq_comm]
    exact ⟨fun he => ⟨hout, he⟩, And.right⟩

end CounterValue

/-! ## Generating -/

/-- Takes the next value like `next`, with checked arithmetic. -/
def CounterDomain.next? (c : Candidate) :
    CounterDomain → Host → Option ((Option CounterValue × CounterDomain) × Host)
  | shared, h => (h.counter.next? c).map fun (v, counter) => ((v, shared), { h with counter })
  | own k, h => (k.next? c).map fun (v, k) => ((v, own k), h)

theorem CounterDomain.next?_eq {d : CounterDomain} {h : Host} (hk : (d.counter h).InUse) (t : Ticks)
    (seed : BitVec 16) : d.next? (Candidate.ofTicks t seed) h =
      some (d.next (Candidate.ofTicks t seed) h) := by
  cases d with
  | shared => exact congrArg (Option.map _) (Counter.next?_eq hk t seed)
  | own k => exact congrArg (Option.map _) (Counter.next?_eq hk t seed)

theorem CounterDomain.inUse_next {d : CounterDomain} {h : Host} (hk : (d.counter h).InUse)
    (t : Ticks) (seed : BitVec 16) :
    ((d.next (Candidate.ofTicks t seed) h).1.2.counter
      (d.next (Candidate.ofTicks t seed) h).2).InUse := by
  rw [counter_next]
  exact hk.next t seed

namespace UnixTime

/-- One attempt like `attempt`, with checked arithmetic. -/
def attempt? (seed : BitVec 16) (g : UnixTime) (h : Host) :
    Option ((Option CounterValue × UnixTime) × Host) := do
  let ((t, source), h) ← g.source.read? h
  let c ← Candidate.ofTicks? t seed
  let ((v, counter), h) ← g.counter.next? c h
  return ((v, { g with source, counter }), h)

/-- Waits for a value like `await`, with checked arithmetic. -/
def await? (seed : BitVec 16) :
    ℕ → UnixTime → Host → Option ((Option CounterValue × UnixTime) × Host)
  | 0, g, h => some ((none, g), h)
  | n + 1, g, h => do
    let ((v, g), h) ← attempt? seed g h
    match v with
    | some v => return ((some v, g), h)
    | none => await? seed n g h

/-- The next UUID like `next`, with checked arithmetic. -/
def next? (g : UnixTime) (h : Host) : Option ((Except Error Uuid × UnixTime) × Host) := do
  let (u, h) := Host.drawUuid h
  let ((v, g), h) ← await? (seedOf u) g.patience g h
  match v with
  | some v => return ((← v.uuid? u, g), h)
  | none => return ((.error .clockStalled, g), h)

/-- The value that the next UUID takes from the counter, if it takes one. -/
def value? (g : UnixTime) (h : Host) : Option CounterValue :=
  (await (seedOf (Host.drawUuid h).1) g.patience g (Host.drawUuid h).2).1.1

/-- Clock and counter of a generator on a host are in use. -/
structure InUse (g : UnixTime) (h : Host) : Prop where
  clock : h.clock.InUse
  counter : (g.counter.counter h).InUse

variable {g : UnixTime} {h : Host} {seed : BitVec 16} {n : ℕ}

theorem InUse.drawUuid (hg : g.InUse h) : g.InUse (Host.drawUuid h).2 := by
  have hkept := Keeps.drawUuid lasting_counter h
  refine ⟨hg.clock, ?_⟩
  rw [g.counter.counter_congr hkept]
  exact hg.counter

theorem InUse.read (hg : g.InUse h) : (g.counter.counter (g.source.read h).2).InUse := by
  have hkept := Keeps.readTime lasting_counter g.source h
  rw [g.counter.counter_congr hkept]
  exact hg.counter

theorem attempt_eq (seed : BitVec 16) (g : UnixTime) (h : Host) : attempt seed g h =
    let a := g.source.read h
    let b := g.counter.next (Candidate.ofTicks a.1.1 seed) a.2
    ((b.1.1, { g with source := a.1.2, counter := b.1.2 }), b.2) := rfl

/-- **An attempt succeeds without an overflow** exactly if the reading of the clock does. -/
theorem succeeds_attempt? (hg : g.InUse h) (seed : BitVec 16) :
    Succeeds (attempt? seed g h) (g.source.ReadFits h) (attempt seed g h) := by
  refine (TimeSource.succeeds_read? hg.clock).andThen fun _ => ?_
  dsimp only
  rw [Candidate.ofTicks?_eq, Option.bind_eq_bind, Option.bind_some,
    CounterDomain.next?_eq hg.read]
  rfl

/-- After an attempt the generator is still in use, and its clock can be read again. -/
theorem inUse_attempt (hg : g.InUse h) (seed : BitVec 16) :
    (attempt seed g h).1.2.InUse (attempt seed g h).2 ∧
      (g.source.ReadFits h → (attempt seed g h).1.2.source.ReadFits (attempt seed g h).2) := by
  -- the counter of the host is all that a counter may change
  have hhost : ∀ c (d : CounterDomain) (h : Host), ∃ counter,
      (d.next c h).2 = { h with counter } := by
    intro c d h
    cases d with
    | shared => exact ⟨_, rfl⟩
    | own k => exact ⟨h.counter, rfl⟩
  obtain ⟨counter, hcounter⟩ :=
    hhost (Candidate.ofTicks (g.source.read h).1.1 seed) g.counter (g.source.read h).2
  rw [attempt_eq]
  refine ⟨⟨?_, CounterDomain.inUse_next hg.read _ _⟩, fun hfits => ?_⟩
  · dsimp only
    rw [hcounter]
    exact TimeSource.inUse_read hg.clock
  · dsimp only
    rw [hcounter]
    exact (TimeSource.readFits_congr rfl rfl rfl).2 (TimeSource.readFits_again hg.clock hfits)

/-- **Waiting for a value overflows** exactly if the first reading of the clock does. -/
theorem succeeds_await? (hg : g.InUse h) (seed : BitVec 16) (n : ℕ) :
    Succeeds (await? seed n g h) (n ≠ 0 → g.source.ReadFits h) (await seed n g h) := by
  induction n generalizing g h with
  | zero => exact (Succeeds.some _).congr (by simp)
  | succ n ih =>
    have hfirst : (n + 1 ≠ 0 → g.source.ReadFits h) ↔ g.source.ReadFits h := by simp
    refine Succeeds.congr ?_ hfirst.symm
    refine (succeeds_attempt? hg seed).andThen fun hfits => ?_
    obtain ⟨hnext, hagain⟩ := inUse_attempt hg seed
    rw [await_succ]
    have hrest := (ih hnext).eq_some fun _ => hagain hfits
    generalize attempt seed g h = a at hrest
    obtain ⟨⟨v, g⟩, h⟩ := a
    cases v with
    | some v => rfl
    | none => exact hrest

/-- **The next UUID succeeds without an overflow** exactly if the reading of the clock does, which
is taken if the generator has any patience, and the ticks of the value do. -/
theorem succeeds_next? (hg : g.InUse h) : Succeeds (g.next? h)
    ((g.patience ≠ 0 → g.source.ReadFits h) ∧
      ∀ v, g.value? h = some v → Fits (v.milliseconds.toInt * 10000)) (g.next h) := by
  have hwait := (succeeds_await? hg.drawUuid (seedOf (Host.drawUuid h).1) g.patience).congr
    (imp_congr_right fun _ => TimeSource.readFits_congr (h := h) rfl rfl rfl)
  refine hwait.bind fun _ => ?_
  rw [next_eq]
  unfold value?
  generalize await (seedOf (Host.drawUuid h).1) g.patience g (Host.drawUuid h).2 = a
  obtain ⟨⟨v, g'⟩, h'⟩ := a
  cases v with
  | some v =>
    have hticks : (∀ x, some v = some x → Fits (x.milliseconds.toInt * 10000)) ↔
        Fits (v.milliseconds.toInt * 10000) := by simp
    refine Succeeds.congr ?_ hticks.symm
    exact (CounterValue.succeeds_uuid? v _).andThen fun _ => rfl
  | none => exact (Succeeds.some _).congr (by simp)

theorem inUse_await (hg : g.InUse h) (seed : BitVec 16) (n : ℕ) :
    (await seed n g h).1.2.InUse (await seed n g h).2 := by
  induction n generalizing g h with
  | zero => exact hg
  | succ n ih =>
    obtain ⟨hnext, -⟩ := inUse_attempt hg seed
    rw [await_succ]
    cases (attempt seed g h).1.1 with
    | some v => exact hnext
    | none => exact ih hnext

/-- **The next UUID leaves clock and counter in use.** -/
theorem inUse_next (hg : g.InUse h) : (g.next h).1.2.InUse (g.next h).2 := by
  rw [next_eq]
  exact inUse_await hg.drawUuid _ _

/-- **The value of the next UUID** is what the counter makes of one of the readings. -/
theorem value?_spec {v : CounterValue} (hv : g.value? h = some v) : ∃ t ∈ g.readings h,
    (g.counter.counter h).value? (Candidate.ofTicks t (seedOf (Host.drawUuid h).1)) = some v := by
  have hdrawn : g.counter.counter (Host.drawUuid h).2 = g.counter.counter h :=
    g.counter.counter_congr (Keeps.drawUuid lasting_counter h)
  obtain ⟨hstep, -⟩ := await_spec (seedOf (Host.drawUuid h).1) g.patience g (Host.drawUuid h).2
  rw [← hdrawn]
  exact hstep v hv

theorem InUse.readAt_value (hg : g.InUse h) {v : CounterValue} (hv : g.value? h = some v) :
    ∃ t, v.ReadAt t := by
  obtain ⟨t, -, hvalue⟩ := value?_spec hv
  exact Counter.readAt_value hg.counter.readAt hvalue

/-- **The next UUID is refused** exactly if its value is off the scale of milliseconds. -/
theorem next_eq_error_iff (hg : g.InUse h) {v : CounterValue} (hv : g.value? h = some v)
    {e : Error} : (g.next h).1.1 = .error e ↔
      ¬ (0 ≤ v.milliseconds.toInt ∧ v.milliseconds.toInt < 281474976710656) ∧
        e = .outOfRange
          (.timestamp TimeScale.unixMilliseconds.first TimeScale.unixMilliseconds.last) := by
  obtain ⟨t, ht⟩ := hg.readAt_value hv
  have hnext : (g.next h).1.1 = v.uuid (Host.drawUuid h).1 := by
    rw [next_eq]
    unfold value? at hv
    dsimp only
    rw [hv]
  rw [hnext]
  exact CounterValue.uuid_eq_error_iff ht

end UnixTime

end UuidForge
