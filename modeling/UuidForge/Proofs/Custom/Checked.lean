import Mathlib.Data.Nat.Notation
import UuidForge.Generator.Custom
import UuidForge.Proofs.Frame
import UuidForge.Proofs.Time.Reading

/-!
# The reach of custom layouts

A custom layout is told the time since the epoch of its generator. That difference is the one sum
that a fill cannot see: the seconds and the fraction that the example layout takes from it, and the
end of its range, are safe.

* `ExampleLayout.fill?_eq`: **the example layout never overflows.**
* `Custom.succeeds_next?`: what can overflow in the next UUID is the reading of the system clock and
  the difference to the epoch.
* `Custom.next_exampleLayout_error_iff`: **a difference that wraps may end in the range.**
-/

namespace UuidForge

open Ticks (Fits)

namespace ExampleLayout

/-- Refuses a time out of range, with checked arithmetic. -/
def refusal? : Option Error := do
  let first : Ticks := Ticks.epoch2020
  let seconds ← Ticks.add? 0xffffffff 1
  let span ← seconds.mul? Ticks.perSecond
  let stop ← first.add? span
  let last ← stop.sub? 1
  let _ ← first.parts?
  let _ ← last.parts?
  return .outOfRange (.timestamp first.toInt last.toInt)

/-- Lays out a UUID like `fill`, with checked arithmetic. -/
def fill? (c : FillContext) (sequence : BitVec 8) (u : Uuid) :
    Option (Except Error Uuid × BitVec 8) := do
  let seconds ← Ticks.ofInt? (c.time.toInt / 10000000)
  if 0 ≤ seconds.toInt ∧ seconds.toInt < 0x100000000 then
    let rest ← Ticks.ofInt? (c.time.toInt % 10000000)
    let scaled ← Ticks.ofInt? (rest.toInt * 65536)
    let fraction ← Ticks.ofInt? (scaled.toInt / 10000000)
    match c.nodeId with
    | .error e => return (.error e, sequence)
    | .ok node =>
      let u := Slice.timeLow.write u (BitVec.ofInt 32 seconds.toInt)
      let u := Slice.timeMid.write u (BitVec.ofInt 16 fraction.toInt)
      let u := nodeOctet.write u (node.octet 4)
      return (.ok (sequenceOctet.write u (sequence + 1)), sequence + 1)
  else
    let e ← refusal?
    return (.error e, sequence)

theorem refusal?_eq : refusal? = some outOfRange := by
  decide

/-- **The example layout never overflows.** -/
theorem fill?_eq (c : FillContext) (sequence : BitVec 8) (u : Uuid) :
    fill? c sequence u = some (fill c sequence u) := by
  have ht := c.time.fits_toInt
  obtain ⟨hseconds, hrest, hscaled, hfraction⟩ : Fits (c.time.toInt / 10000000) ∧
      Fits (c.time.toInt % 10000000) ∧ Fits (c.time.toInt % 10000000 * 65536) ∧
      Fits (c.time.toInt % 10000000 * 65536 / 10000000) := by
    unfold Fits at ht ⊢
    omega
  have hnat : c.time.toInt % 10000000 * 65536 / 10000000 =
      (((c.time.toInt % 10000000).toNat * 65536 / 10000000 : ℕ) : ℤ) := by omega
  unfold fill? fill
  simp only [Option.bind_eq_bind, Option.bind_some, Ticks.ofInt?_of_fits hseconds,
    Ticks.toInt_ofInt hseconds, Ticks.ofInt?_of_fits hrest, Ticks.toInt_ofInt hrest,
    Ticks.ofInt?_of_fits hscaled, Ticks.toInt_ofInt hscaled, Ticks.ofInt?_of_fits hfraction,
    Ticks.toInt_ofInt hfraction, refusal?_eq]
  rw [hnat, BitVec.ofInt_natCast]
  split
  · cases c.nodeId <;> rfl
  · rfl

/-- Whole seconds are in range exactly if the time is. -/
theorem seconds_range_iff (t : Ticks) :
    0 ≤ t.toInt / 10000000 ∧ t.toInt / 10000000 < 0x100000000 ↔
      0 ≤ t.toInt ∧ t.toInt < bound := by
  unfold bound
  omega

/-- The example layout refuses a time exactly if it is out of range. -/
theorem fill_refuses_iff (c : FillContext) (sequence : BitVec 8) (u : Uuid) :
    (fill c sequence u).1 = .error outOfRange ↔ ¬ (0 ≤ c.time.toInt ∧ c.time.toInt < bound) := by
  have hrange := seconds_range_iff c.time
  unfold fill
  dsimp only
  by_cases h : 0 ≤ c.time.toInt ∧ c.time.toInt < bound
  · have hother : ∀ e, c.nodeId = .error e → e ≠ outOfRange := by
      intro e he
      unfold FillContext.nodeId at he
      split at he
      · cases he
      · cases he
        nofun
    rw [if_pos (hrange.2 h)]
    refine iff_of_false ?_ (not_not_intro h)
    cases hn : c.nodeId with
    | error e =>
      intro he
      exact hother e hn (Except.error.inj he)
    | ok node => nofun
  · rw [if_neg (mt hrange.1 h)]
    exact iff_of_true rfl h

end ExampleLayout

/-- The layout is the example. -/
def Fill.IsExample : Fill → Prop
  | exampleLayout _ => True
  | sharedExample => True
  | function _ => False
  | recalling .. => False

/-- Lays out a UUID like `run`, with checked arithmetic where the layout is the example. -/
def Fill.run? (c : FillContext) (u : Uuid) :
    Fill → Host → Option ((Except Error Uuid × Fill) × Host)
  | exampleLayout sequence, h =>
    (ExampleLayout.fill? c sequence u).map fun (r, sequence) => ((r, exampleLayout sequence), h)
  | sharedExample, h =>
    (ExampleLayout.fill? c h.exampleSequence u).map fun (r, sequence) =>
      ((r, sharedExample), { h with exampleSequence := sequence })
  | l, h => some (l.run c u h)

theorem Fill.run?_eq (c : FillContext) (u : Uuid) (l : Fill) (h : Host) :
    l.run? c u h = some (l.run c u h) := by
  cases l with
  | function f => rfl
  | recalling f past => rfl
  | exampleLayout sequence =>
    exact congrArg (Option.map _) (ExampleLayout.fill?_eq c sequence u)
  | sharedExample =>
    exact congrArg (Option.map _) (ExampleLayout.fill?_eq c h.exampleSequence u)

namespace Custom

/-- The next UUID like `next`, with checked arithmetic. -/
def next? (g : Custom) (h : Host) : Option ((Except Error Uuid × Custom) × Host) := do
  let ((t, source), h) ← g.source.read? h
  let time ← t.sub? g.epoch
  let ((node, nodes), h) := readNode g.nodes h
  let (u, h) := Host.drawUuid h
  let ((r, fill), h) ← g.fill.run? { time, node } u h
  return ((r.map fun u => u.stamp .v8 .rfc4122, { g with source, nodes, fill }), h)

/-- The time since the epoch that the next UUID is told, as an exact number. -/
def sinceEpoch (g : Custom) (h : Host) : ℤ := (g.source.read h).1.1.toInt - g.epoch.toInt

variable {g : Custom} {h : Host}

/-- **The next UUID succeeds without an overflow** exactly if the reading of the clock does and the
time since the epoch fits. -/
theorem succeeds_next? (hc : h.clock.InUse) :
    Succeeds (g.next? h) (g.source.ReadFits h ∧ Fits (g.sinceEpoch h)) (g.next h) := by
  refine (TimeSource.succeeds_read? hc).bind fun _ => ?_
  refine (Ticks.succeeds_sub? _ _).andThen fun _ => ?_
  exact congrArg (Option.bind · _) (Fill.run?_eq _ _ g.fill _)

/-- **The next UUID leaves the clock in use.** -/
theorem inUse_next (hc : h.clock.InUse) : (g.next h).2.clock.InUse := by
  have hread := TimeSource.inUse_read (s := g.source) hc
  have hnode := (onlyRead_readNode g.nodes false (g.source.read h).2).clock_eq
  have hfill : ∀ (l : Fill) (c : FillContext) (u : Uuid) (h : Host),
      (l.run c u h).2.clock = h.clock := by
    intro l c u h
    cases l <;> rfl
  have hnext : ∃ c u, (g.next h).2 =
      (g.fill.run c u (Host.drawUuid (readNode g.nodes (g.source.read h).2).2).2).2 :=
    ⟨_, _, rfl⟩
  obtain ⟨c, u, hnext⟩ := hnext
  have hdraw : ∀ h : Host, (Host.drawUuid h).2.clock = h.clock := fun _ => rfl
  rw [hnext, hfill, hdraw, hnode]
  exact hread

/-- **A time out of range is refused**, unless the time since the epoch overflows downwards and
wraps into the range. -/
theorem next_refuses_iff (hl : g.fill.IsExample) :
    (g.next h).1.1 = .error ExampleLayout.outOfRange ↔
      ¬ (0 ≤ g.sinceEpoch h ∧ g.sinceEpoch h < ExampleLayout.bound) ∧
        ¬ g.sinceEpoch h + 18446744073709551616 < ExampleLayout.bound := by
  have hnext : ∃ node u h', (g.next h).1.1 =
      (g.fill.run { time := (g.source.read h).1.1 - g.epoch, node } u h').1.1.map
        (·.stamp .v8 .rfc4122) := ⟨_, _, _, rfl⟩
  obtain ⟨node, u, h', hnext⟩ := hnext
  have hfill : (g.fill.run { time := (g.source.read h).1.1 - g.epoch, node } u h').1.1 =
        .error ExampleLayout.outOfRange ↔
      ¬ (0 ≤ ((g.source.read h).1.1 - g.epoch).toInt ∧
        ((g.source.read h).1.1 - g.epoch).toInt < ExampleLayout.bound) := by
    cases hg : g.fill with
    | exampleLayout sequence => exact ExampleLayout.fill_refuses_iff _ _ _
    | sharedExample => exact ExampleLayout.fill_refuses_iff _ _ _
    | function | recalling =>
      rw [hg] at hl
      cases hl
  rw [hnext, map_eq_error_iff, hfill]
  have ht := (g.source.read h).1.1.fits_toInt
  have he := g.epoch.fits_toInt
  unfold sinceEpoch ExampleLayout.bound
  by_cases hfits : Fits ((g.source.read h).1.1.toInt - g.epoch.toInt)
  · rw [Ticks.toInt_sub hfits]
    unfold Fits at hfits
    omega
  · rcases Ticks.toInt_sub_of_not_fits hfits with ⟨hneg, hwrap⟩ | ⟨hpos, hwrap⟩
    · rw [hwrap]
      unfold Fits at hfits ht he
      omega
    · rw [hwrap]
      unfold Fits at hfits ht he
      omega

end Custom

end UuidForge
