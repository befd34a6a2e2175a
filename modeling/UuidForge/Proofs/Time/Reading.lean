import UuidForge.Generator.Source
import UuidForge.Proofs.Time.Checked

/-!
# The reach of readings

The system clock adds and subtracts ticks that may lie anywhere in a word. The time since the last
drift check is safe, as both of its ends are spans; the sum of anchor and elapsed time, the drift
and the new anchor are not.

* `SystemClock.InUse`: a clock that was started and read any number of times.
* `SystemClock.ReadFits`: the exact results of a reading fit.
* `SystemClock.succeeds_read?`: **a checked reading succeeds exactly then**, and is the reading.
* `SystemClock.readFits_of_near`: a clock that only ever sees times near 1970 does not overflow.
* `TimeSource.succeeds_read?`: readings of one's own need no arithmetic.
-/

namespace UuidForge

namespace SystemClock

open Ticks (Fits)

/-- A clock that was started and read at times with a property. -/
inductive UsedAt (p : Instant → Span → Prop) : SystemClock → Prop
  | start {wall : Instant} {mono : Span} : p wall mono → UsedAt p (start wall mono)
  | read {c : SystemClock} {wall : Instant} {mono : Span} :
      UsedAt p c → p wall mono → UsedAt p (c.read wall mono).2

/-- **A clock in use** was started and read any number of times. -/
abbrev InUse (c : SystemClock) : Prop := c.UsedAt fun _ _ => True

/-- Moves the anchor like `resync`, with checked arithmetic. -/
def resync? (c : SystemClock) (wall : Instant) (elapsed : Ticks) : Option SystemClock := do
  let wall ← Ticks.ofInstant? wall
  let present ← c.base.add? elapsed
  let drift ← wall.sub? present
  let distance ← drift.abs?
  if distance ≥ Ticks.perSecond then (wall.sub? elapsed).map fun base => { c with base }
  else some c

/-- Checks the anchor when a second has passed since the last check. -/
def check (c : SystemClock) (wall : Instant) (elapsed : Ticks) : SystemClock :=
  if elapsed - c.checked ≥ Ticks.perSecond then { c with checked := elapsed }.resync wall elapsed
  else c

/-- Checks the anchor like `check`, with checked arithmetic. -/
def check? (c : SystemClock) (wall : Instant) (elapsed : Ticks) : Option SystemClock := do
  let since ← elapsed.sub? c.checked
  if since ≥ Ticks.perSecond then resync? { c with checked := elapsed } wall elapsed else some c

/-- Reads a clock like `read`, with checked arithmetic. -/
def read? (c : SystemClock) (wall : Instant) (mono : Span) : Option (Ticks × SystemClock) := do
  let elapsed := Ticks.ofSpan (mono - c.origin)
  let c ← c.check? wall elapsed
  let t ← c.base.add? elapsed
  return (t, c)

variable {c : SystemClock} {wall : Instant} {mono : Span} {elapsed : Ticks}

/-- How far the wall clock is ahead, as an exact number. -/
def drift (c : SystemClock) (wall : Instant) (elapsed : Ticks) : ℤ :=
  (Ticks.ofInstant wall).toInt - (c.base.toInt + elapsed.toInt)

/-- The exact results of a drift check fit, and those of moving the anchor if it is due. -/
def ResyncFits (c : SystemClock) (wall : Instant) (elapsed : Ticks) : Prop :=
  Fits (c.drift wall elapsed).natAbs ∧
    (10000000 ≤ (c.drift wall elapsed).natAbs →
      Fits ((Ticks.ofInstant wall).toInt - elapsed.toInt))

/-- **The exact results of a reading fit**: the sum of anchor and elapsed time, and those of the
drift check if a second has passed since the last one. -/
def ReadFits (c : SystemClock) (wall : Instant) (mono : Span) : Prop :=
  let elapsed := Ticks.ofSpan (mono - c.origin)
  Fits (c.base.toInt + elapsed.toInt) ∧
    (10000000 ≤ elapsed.toInt - c.checked.toInt → c.ResyncFits wall elapsed)

instance : Decidable (c.ResyncFits wall elapsed) := inferInstanceAs (Decidable (_ ∧ _))

instance : Decidable (c.ReadFits wall mono) := inferInstanceAs (Decidable (_ ∧ _))

section Resync

variable (hsum : Fits (c.base.toInt + elapsed.toInt))

include hsum

theorem drift_eq :
    (Ticks.ofInstant wall).toInt - (c.base + elapsed).toInt = c.drift wall elapsed := by
  rw [Ticks.toInt_add hsum, drift]

/-- Where the drift fits, the anchor is moved when the exact drift says so. -/
theorem resync_due_iff (hdrift : Fits (c.drift wall elapsed).natAbs) :
    (Ticks.ofInstant wall - (c.base + elapsed)).abs ≥ Ticks.perSecond ↔
      10000000 ≤ (c.drift wall elapsed).natAbs := by
  have hfits : Fits (c.drift wall elapsed) := Ticks.fits_of_natAbs hdrift
  have hsecond : Ticks.perSecond.toInt = 10000000 := by decide
  have hexact : (Ticks.ofInstant wall - (c.base + elapsed)).toInt = c.drift wall elapsed := by
    rw [← drift_eq hsum] at hfits ⊢
    exact Ticks.toInt_sub hfits
  rw [← hexact] at hdrift ⊢
  rw [ge_iff_le, Int64.le_iff_toInt_le, Ticks.toInt_abs hdrift, hsecond]
  omega

/-- A clock whose anchor was checked can still be read. -/
theorem fits_resync (hfits : c.ResyncFits wall elapsed) :
    Fits ((c.resync wall elapsed).base.toInt + elapsed.toInt) := by
  obtain ⟨hdrift, hbase⟩ := hfits
  have hdue := resync_due_iff hsum hdrift
  unfold resync
  dsimp only
  split
  · -- the reading of a moved clock is that of the wall clock
    rename_i hd
    have hwall := Ticks.fits_toInt (Ticks.ofInstant wall)
    rwa [Ticks.toInt_sub (hbase (hdue.1 hd)), Int.sub_add_cancel]
  · exact hsum

end Resync

/-- **The anchor is checked without an overflow** exactly if the exact results fit. -/
theorem succeeds_resync? (c : SystemClock) (wall : Instant) (elapsed : Ticks) :
    Succeeds (c.resync? wall elapsed)
      (Fits (c.base.toInt + elapsed.toInt) ∧ c.ResyncFits wall elapsed)
      (c.resync wall elapsed) := by
  have hsteps : Succeeds (c.resync? wall elapsed) _ (c.resync wall elapsed) :=
    (Ticks.succeeds_ofInstant? wall).bind fun _ =>
      (Ticks.succeeds_add? c.base elapsed).bind fun _ =>
        (Ticks.succeeds_sub? (Ticks.ofInstant wall) (c.base + elapsed)).bind fun _ =>
          (Ticks.succeeds_abs? _).bind fun _ =>
            Succeeds.ite (fun _ => (Ticks.succeeds_sub? _ elapsed).map _) fun _ => .some c
  refine hsteps.congr ?_
  constructor
  · rintro ⟨-, hsum, hdrift, habs, hbase, -⟩
    rw [Ticks.toInt_sub hdrift, drift_eq hsum] at habs
    exact ⟨hsum, habs, fun hd => hbase ((resync_due_iff hsum habs).2 hd)⟩
  · rintro ⟨hsum, habs, hbase⟩
    have hdue := resync_due_iff hsum habs
    have hdrift : Fits (c.drift wall elapsed) := Ticks.fits_of_natAbs habs
    rw [← drift_eq hsum] at hdrift habs
    refine ⟨trivial, hsum, hdrift, ?_, fun hd => hbase (hdue.1 hd), fun _ => trivial⟩
    rwa [Ticks.toInt_sub hdrift]

/-! ## Readings -/

theorem read_eq (c : SystemClock) (wall : Instant) (mono : Span) : c.read wall mono =
    ((c.check wall (Ticks.ofSpan (mono - c.origin))).base + Ticks.ofSpan (mono - c.origin),
      c.check wall (Ticks.ofSpan (mono - c.origin))) := rfl

theorem origin_check (c : SystemClock) (wall : Instant) (elapsed : Ticks) :
    (c.check wall elapsed).origin = c.origin := by
  unfold check
  split
  · exact origin_resync ..
  · rfl

/-- The last drift check of a clock in use was some time after the start. -/
theorem InUse.checked_nonneg (hc : c.InUse) : 0 ≤ c.checked.toInt := by
  induction hc with
  | start _ => exact Int.le_refl 0
  | read _ _ ih =>
    rw [read_eq, check]
    split
    · rw [checked_resync]
      exact (Ticks.ofSpan_bounds _).1
    · exact ih

/-- The exact results of checking the anchor when it is due fit. -/
def CheckFits (c : SystemClock) (wall : Instant) (elapsed : Ticks) : Prop :=
  10000000 ≤ elapsed.toInt - c.checked.toInt →
    Fits (c.base.toInt + elapsed.toInt) ∧ c.ResyncFits wall elapsed

/-- The time since the last drift check lies between two spans. -/
theorem check_due_iff (hc : c.InUse) (helapsed : 0 ≤ elapsed.toInt) :
    Fits (elapsed.toInt - c.checked.toInt) ∧ (elapsed - c.checked ≥ Ticks.perSecond ↔
      10000000 ≤ elapsed.toInt - c.checked.toInt) := by
  have hchecked := hc.checked_nonneg
  have hlast := c.checked.fits_toInt
  have hend := elapsed.fits_toInt
  have hsecond : Ticks.perSecond.toInt = 10000000 := by decide
  have hfits : Fits (elapsed.toInt - c.checked.toInt) := by
    unfold Fits at hlast hend ⊢
    omega
  rw [ge_iff_le, Int64.le_iff_toInt_le, Ticks.toInt_sub hfits, hsecond]
  exact ⟨hfits, Iff.rfl⟩

theorem succeeds_check? (hc : c.InUse) (wall : Instant) (helapsed : 0 ≤ elapsed.toInt) :
    Succeeds (c.check? wall elapsed) (c.CheckFits wall elapsed) (c.check wall elapsed) := by
  obtain ⟨hsince, hdue⟩ := check_due_iff hc helapsed
  have hsteps : Succeeds (c.check? wall elapsed) _ (c.check wall elapsed) :=
    (Ticks.succeeds_sub? elapsed c.checked).bind fun _ =>
      Succeeds.ite (fun _ => succeeds_resync? { c with checked := elapsed } wall elapsed)
        fun _ => .some c
  refine hsteps.congr ?_
  constructor
  · rintro ⟨-, hresync, -⟩ hd
    exact hresync (hdue.2 hd)
  · intro hcheck
    exact ⟨hsince, fun hd => hcheck (hdue.1 hd), fun _ => trivial⟩

/-- A clock whose anchor was checked can be read exactly if it could be read before. -/
theorem fits_check_iff (hc : c.InUse) (helapsed : 0 ≤ elapsed.toInt)
    (hcheck : c.CheckFits wall elapsed) :
    Fits ((c.check wall elapsed).base.toInt + elapsed.toInt) ↔
      Fits (c.base.toInt + elapsed.toInt) := by
  obtain ⟨-, hdue⟩ := check_due_iff hc helapsed
  unfold check
  by_cases hd : 10000000 ≤ elapsed.toInt - c.checked.toInt
  · obtain ⟨hsum, hresync⟩ := hcheck hd
    rw [if_pos (hdue.2 hd)]
    exact iff_of_true (fits_resync (c := { c with checked := elapsed }) hsum hresync) hsum
  · rw [if_neg (mt hdue.1 hd)]

/-- **A reading succeeds without an overflow** exactly if its exact results fit. -/
theorem succeeds_read? (hc : c.InUse) (wall : Instant) (mono : Span) :
    Succeeds (c.read? wall mono) (c.ReadFits wall mono) (c.read wall mono) := by
  obtain ⟨helapsed, -⟩ := Ticks.ofSpan_bounds (mono - c.origin)
  have hsteps : Succeeds (c.read? wall mono) _ (c.read wall mono) :=
    (succeeds_check? hc wall helapsed).bind fun _ =>
      (Ticks.succeeds_add? _ (Ticks.ofSpan (mono - c.origin))).bind fun _ => .some _
  refine hsteps.congr ?_
  constructor
  · rintro ⟨hcheck, hsum, -⟩
    exact ⟨(fits_check_iff hc helapsed hcheck).1 hsum, fun hd => (hcheck hd).2⟩
  · rintro ⟨hbase, hresync⟩
    have hcheck : c.CheckFits wall (Ticks.ofSpan (mono - c.origin)) :=
      fun hd => ⟨hbase, hresync hd⟩
    exact ⟨hcheck, (fits_check_iff hc helapsed hcheck).2 hbase, trivial⟩

/-- A clock that was read can be read again at the same time. -/
theorem readFits_again (hc : c.InUse) (h : c.ReadFits wall mono) :
    (c.read wall mono).2.ReadFits wall mono := by
  obtain ⟨helapsed, -⟩ := Ticks.ofSpan_bounds (mono - c.origin)
  obtain ⟨hbase, hresync⟩ := h
  rw [read_eq]
  unfold ReadFits
  dsimp only
  rw [origin_check]
  generalize Ticks.ofSpan (mono - c.origin) = elapsed at helapsed hbase hresync
  obtain ⟨-, hdue⟩ := check_due_iff hc helapsed
  have hcheck : c.CheckFits wall elapsed := fun hd => ⟨hbase, hresync hd⟩
  refine ⟨(fits_check_iff hc helapsed hcheck).2 hbase, ?_⟩
  unfold check
  split
  · -- no time has passed since the check that this reading made
    intro hd
    rw [checked_resync] at hd
    dsimp only at hd
    omega
  · exact hresync

/-! ## Times near 1970 -/

/-- At most `2 ^ 61` ticks away from 1970 and from the start of the monotonic clock: about 7300
years. -/
def Near (wall : Instant) (mono : Span) : Prop :=
  (Ticks.ofInstant wall).toInt.natAbs ≤ 2305843009213693952 ∧ mono / 100 ≤ 2305843009213693952

instance : Decidable (Near wall mono) := inferInstanceAs (Decidable (_ ∧ _))

theorem elapsed_near (h : Near wall mono) (origin : Span) :
    0 ≤ (Ticks.ofSpan (mono - origin)).toInt ∧
      (Ticks.ofSpan (mono - origin)).toInt ≤ 2305843009213693952 := by
  have hmono : (mono - origin) / 100 ≤ mono / 100 := Nat.div_le_div_right (Nat.sub_le mono origin)
  have hle : Nat.min ((mono - origin) / 100) 9223372036854775807 ≤ 2305843009213693952 :=
    Nat.le_trans (Nat.min_le_left _ _) (Nat.le_trans hmono h.2)
  rw [Ticks.toInt_ofSpan]
  exact ⟨Int.natCast_nonneg _, Int.ofNat_le.2 hle⟩

/-- The anchor stays near 1970 with the times. -/
theorem UsedAt.base_near (hc : c.UsedAt Near) :
    -4611686018427387904 ≤ c.base.toInt ∧ c.base.toInt ≤ 2305843009213693952 := by
  induction hc with
  | @start wall mono h =>
    have hbase : (SystemClock.start wall mono).base = Ticks.ofInstant wall := rfl
    obtain ⟨hwall, -⟩ := h
    rw [hbase]
    omega
  | @read c wall mono _ h ih =>
    rw [read_eq]
    dsimp only
    obtain ⟨hlo, hhi⟩ := elapsed_near h c.origin
    generalize Ticks.ofSpan (mono - c.origin) = elapsed at hlo hhi
    unfold check
    split
    · unfold resync
      dsimp only
      split
      · -- the new anchor lies before the wall clock by the elapsed time
        obtain ⟨hwall, -⟩ := h
        have hfits : Fits ((Ticks.ofInstant wall).toInt - elapsed.toInt) := by
          unfold Fits
          omega
        rw [Ticks.toInt_sub hfits]
        omega
      · exact ih
    · exact ih

/-- **A clock that only ever sees times near 1970 does not overflow.** -/
theorem readFits_of_near (hc : c.UsedAt Near) (h : Near wall mono) : c.ReadFits wall mono := by
  obtain ⟨hlo, hhi⟩ := hc.base_near
  obtain ⟨hstart, hend⟩ := elapsed_near h c.origin
  obtain ⟨hwall, -⟩ := h
  unfold ReadFits ResyncFits drift Fits
  dsimp only
  omega

end SystemClock

namespace TimeSource

/-- Reads a source like `read`, with checked arithmetic. -/
def read? : TimeSource → Host → Option ((Ticks × TimeSource) × Host)
  | system, h => (h.clock.read? h.wall h.mono).map fun (t, clock) => ((t, system), { h with clock })
  | readings f i, h => some ((f i, readings f (i + 1)), h)

/-- The exact results of a reading fit. -/
def ReadFits (h : Host) : TimeSource → Prop
  | system => h.clock.ReadFits h.wall h.mono
  | readings .. => True

variable {s : TimeSource} {h : Host}

/-- **A reading of a source succeeds without an overflow** exactly if its exact results fit. -/
theorem succeeds_read? (hc : h.clock.InUse) : Succeeds (s.read? h) (s.ReadFits h) (s.read h) := by
  cases s with
  | system => exact (SystemClock.succeeds_read? hc h.wall h.mono).map _
  | readings f i => exact .some _

/-- Whether a reading fits depends on the clocks alone. -/
theorem readFits_congr {h' : Host} (hclock : h'.clock = h.clock) (hwall : h'.wall = h.wall)
    (hmono : h'.mono = h.mono) : s.ReadFits h' ↔ s.ReadFits h := by
  cases s with
  | system =>
    unfold ReadFits
    rw [hclock, hwall, hmono]
  | readings f i => exact Iff.rfl

/-- A source that was read can be read again at the same time. -/
theorem readFits_again (hc : h.clock.InUse) (hs : s.ReadFits h) :
    (s.read h).1.2.ReadFits (s.read h).2 := by
  cases s with
  | system => exact SystemClock.readFits_again hc hs
  | readings f i => trivial

theorem inUse_read (hc : h.clock.InUse) : (s.read h).2.clock.InUse := by
  cases s with
  | system => exact .read hc trivial
  | readings f i => exact hc

end TimeSource

end UuidForge
