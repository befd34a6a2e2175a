import UuidForge.Proofs.Counter.Split
import UuidForge.Proofs.UnixTime.Checked

/-!
# How long a generator waits

Only the last value of a millisecond makes a generator of version 7 wait. Then the clock within the
millisecond decides nothing any more: a reading ends the wait if it comes from a later millisecond,
or from one that is more than ten seconds back.

* `TimeSource.reading`: what a source gives when it is read again and again, which can be any
  sequence (`TimeSource.reading_readings`).
* `Counter.value?_of_last`: **which readings a used-up counter accepts**, and what it makes of them.
* `UnixTime.waited_of_rejected`, `UnixTime.waited_of_first`: what comes of a wait, for any counter.
* `UnixTime.waits_exactly`: **a generator waits exactly as long as it must**, and nothing happens
  while it waits.
-/

namespace UuidForge

open Ticks (Fits)

/-! ## Readings in a row -/

namespace TimeSource

/-- A source and its host after `n` readings. -/
def readOn : TimeSource → Host → ℕ → TimeSource × Host
  | s, h, 0 => (s, h)
  | s, h, n + 1 => readOn (s.read h).1.2 (s.read h).2 n

/-- Reading `n` of a source, counted from now on. -/
def reading (s : TimeSource) (h : Host) (n : ℕ) : Ticks :=
  ((s.readOn h n).1.read (s.readOn h n).2).1.1

variable (s : TimeSource) (h : Host)

theorem reading_succ (n : ℕ) : s.reading h (n + 1) = (s.read h).1.2.reading (s.read h).2 n := rfl

/-- The last of the readings read on from those before. -/
theorem readOn_succ (n : ℕ) : s.readOn h (n + 1) = (s.readOn h n).1.readOn (s.readOn h n).2 1 := by
  induction n generalizing s h with
  | zero => rfl
  | succ n ih => exact ih (s.read h).1.2 (s.read h).2

/-- Any sequence is a row of readings. -/
theorem reading_readings (f : ℕ → Ticks) (i n : ℕ) : (readings f i).reading h n = f (i + n) := by
  induction n generalizing i with
  | zero => rfl
  | succ n ih =>
    have hnext : (readings f i).read h = ((f i, readings f (i + 1)), h) := rfl
    rw [reading_succ, hnext, ih, Nat.add_right_comm, Nat.add_assoc]

/-- Reading a clock draws nothing. -/
theorem entropy_readOn (n : ℕ) : (s.readOn h n).2.entropy = h.entropy := by
  induction n generalizing s h with
  | zero => rfl
  | succ n ih =>
    have hread : (s.read h).2.entropy = h.entropy := by
      cases s with
      | system => rfl
      | readings f i => rfl
    exact (ih _ _).trans hread

theorem counter_readOn (n : ℕ) : (s.readOn h n).2.counter = h.counter := by
  induction n generalizing s h with
  | zero => rfl
  | succ n ih => exact (ih _ _).trans (Keeps.readTime lasting_counter s h)

end TimeSource

/-! ## What a counter accepts -/

/-- **A reading ends a wait** in millisecond `m`: it is from a later millisecond, or from one that
is more than ten seconds back. -/
def Ticks.EndsWait (m : Int64) (t : Ticks) : Prop :=
  m.toInt < t.millisecond ∨ t.millisecond < m.toInt - 10000

instance (m : Int64) (t : Ticks) : Decidable (Ticks.EndsWait m t) :=
  inferInstanceAs (Decidable (_ ∨ _))

/-- **The value that adopts a reading**: its milliseconds, its clock of 4096 steps to the
millisecond, and the seed without its upper bits. -/
structure CounterValue.Adopts (v : CounterValue) (t : Ticks) (seed : BitVec 16) : Prop where
  milliseconds : v.milliseconds.toInt = t.millisecond
  clock : (v.clock.toNat : ℤ) = (t.toInt - t.millisecond * 10000) * 4096 / 10000
  sequence : v.sequence.setWidth 16 = seed &&& 0x1fff

theorem Candidate.adopts (t : Ticks) (seed : BitVec 16) :
    (ofTicks t seed).adopted.Adopts t seed where
  milliseconds := readAt_adopted t seed
  clock := by
    have hclock := clock_ofTicks t seed
    rw [clock_adopted, hclock]
    unfold Ticks.millisecond
    omega
  sequence := congrArg CounterWords.sequence (CounterWords.words_adopted (ofTicks t seed))

namespace Counter

variable {k : Counter} {m : Int64} {t : Ticks} {seed : BitVec 16}

/-- **Only a used-up counter rejects a candidate.** -/
theorem isLast_of_value?_eq_none {c : Candidate} (h : k.value? c = none) :
    ∃ m, k.last = some ⟨m, 0xfff, 0x3fff⟩ := by
  obtain ⟨p, hp, -, -, hs, hc⟩ := (value?_eq_none_iff k c).1 h
  have hsequence : p.sequence = 0x3fff := by bv_omega
  have hclock : p.clock = 0xfff := by bv_omega
  refine ⟨p.milliseconds, ?_⟩
  rw [hp, ← hsequence, ← hclock]

/-- **A used-up counter accepts exactly the readings that end the wait**, and adopts them. -/
theorem value?_of_last (hk : k.last = some ⟨m, 0xfff, 0x3fff⟩)
    (hfits : Fits (m.toInt - t.millisecond)) (seed : BitVec 16) :
    k.value? (Candidate.ofTicks t seed) =
      if t.EndsWait m then some (Candidate.ofTicks t seed).adopted else none := by
  have hms : (Candidate.ofTicks t seed).adopted.milliseconds.toInt = t.millisecond :=
    Candidate.readAt_adopted t seed
  have hclock := (Candidate.ofTicks t seed).adopted.clock.isLt
  rw [← hms] at hfits
  rw [value?, hk]
  dsimp only
  rw [CounterValue.after_eq (p := ⟨m, 0xfff, 0x3fff⟩) hfits]
  -- no clock is larger than the last one, so the milliseconds decide
  have hkept : ((⟨m, 0xfff, 0x3fff⟩ : CounterValue).SameOrLater (Candidate.ofTicks t seed).adopted ∧
      m.toInt - (Candidate.ofTicks t seed).adopted.milliseconds.toInt ≤ 10000) ↔
        ¬ t.EndsWait m := by
    have hlast : (0xfff : BitVec 12).toNat = 4095 := rfl
    rw [CounterValue.sameOrLater_iff, hms]
    unfold Ticks.EndsWait
    dsimp only
    omega
  by_cases hends : t.EndsWait m
  · rw [if_pos hends, if_neg fun h => hkept.1 h hends]
  · rw [if_neg hends, if_pos (hkept.2 hends)]
    exact CounterValue.raised_eq_none_iff.2 ⟨rfl, rfl⟩

/-- The milliseconds of a counter in use are those of a reading, so they lie close to all others. -/
theorem InUse.fits (hk : k.InUse) {p : CounterValue} (hp : k.last = some p) (t : Ticks) :
    Fits (p.milliseconds.toInt - t.millisecond) := by
  obtain ⟨s, hs⟩ := hk.readAt p hp
  have h1 := Ticks.millisecond_bounds s
  have h2 := Ticks.millisecond_bounds t
  unfold CounterValue.ReadAt at hs
  unfold Fits
  omega

end Counter

/-! ## What comes of a wait -/

namespace CounterDomain

variable {d : CounterDomain} {c : Candidate} {h : Host}

/-- **A rejected candidate leaves everything as it was.** -/
theorem next_of_rejected (hv : (d.counter h).value? c = none) : d.next c h = ((none, d), h) := by
  have hnext : (d.counter h).next c = (none, d.counter h) :=
    Prod.ext hv (Counter.next_of_value?_eq_none hv)
  cases d with
  | shared => exact congrArg (fun a => ((a.1, shared), { h with counter := a.2 })) hnext
  | own k => exact congrArg (fun a => ((a.1, own a.2), h)) hnext

theorem entropy_next (d : CounterDomain) (c : Candidate) (h : Host) :
    (d.next c h).2.entropy = h.entropy := by
  cases d with
  | shared => rfl
  | own k => rfl

end CounterDomain

namespace UnixTime

/-- **What a wait of at most `n` readings comes to**: it takes `taken` of them and answers with
`value`. The counter holds that value, or else what it held before, and nothing is drawn. -/
structure Waited (seed : BitVec 16) (n : ℕ) (g : UnixTime) (h : Host) (taken : ℕ)
    (value : Option CounterValue) : Prop where
  answer : (await seed n g h).1.1 = value
  readings : readingsOf seed n g h = (List.range taken).map (g.source.reading h)
  source : (await seed n g h).1.2.source = (g.source.readOn h taken).1
  last : ((await seed n g h).1.2.counter.counter (await seed n g h).2).last =
    (value <|> (g.counter.counter h).last)
  entropy : (await seed n g h).2.entropy = h.entropy

/-- A generator and its host after `n` readings that led to nothing. -/
def readOn (g : UnixTime) (h : Host) (n : ℕ) : UnixTime × Host :=
  ({ g with source := (g.source.readOn h n).1 }, (g.source.readOn h n).2)

/-- What the counter says to reading `n`, if it stands as it does now. -/
def verdict (seed : BitVec 16) (g : UnixTime) (h : Host) (n : ℕ) : Option CounterValue :=
  (g.counter.counter h).value? (Candidate.ofTicks (g.source.reading h n) seed)

variable {g : UnixTime} {h : Host} {seed : BitVec 16} {j n : ℕ} {v : CounterValue}

theorem counter_readOn (g : UnixTime) (h : Host) (n : ℕ) :
    (g.readOn h n).1.counter.counter (g.readOn h n).2 = g.counter.counter h :=
  g.counter.counter_congr (g.source.counter_readOn h n)

theorem verdict_readOn (n : ℕ) :
    verdict seed (g.readOn h 1).1 (g.readOn h 1).2 n = verdict seed g h (n + 1) := by
  unfold verdict
  rw [counter_readOn]
  rfl

/-- **A rejected reading leads to nothing.** -/
theorem attempt_of_rejected (hv : verdict seed g h 0 = none) :
    attempt seed g h = ((none, (g.readOn h 1).1), (g.readOn h 1).2) := by
  have hnext : g.counter.next (Candidate.ofTicks (g.source.read h).1.1 seed) (g.source.read h).2 =
      ((none, g.counter), (g.source.read h).2) := by
    refine CounterDomain.next_of_rejected ?_
    rw [← hv]
    exact congrArg (Counter.value? · _) (g.counter_readOn h 1)
  rw [attempt_eq]
  dsimp only
  rw [hnext]
  rfl

theorem entropy_attempt (seed : BitVec 16) (g : UnixTime) (h : Host) :
    (attempt seed g h).2.entropy = h.entropy :=
  (g.counter.entropy_next _ _).trans (g.source.entropy_readOn h 1)

/-- **Rejected readings are skipped.** -/
theorem await_of_rejected (n : ℕ) (hrejected : ∀ i < j, verdict seed g h i = none) :
    await seed (j + n) g h = await seed n (g.readOn h j).1 (g.readOn h j).2 ∧
      readingsOf seed (j + n) g h = (List.range j).map (g.source.reading h) ++
        readingsOf seed n (g.readOn h j).1 (g.readOn h j).2 := by
  induction j generalizing g h with
  | zero =>
    rw [Nat.zero_add]
    exact ⟨rfl, rfl⟩
  | succ j ih =>
    have hfirst := attempt_of_rejected (hrejected 0 (Nat.succ_pos j))
    -- the rest of the wait finds the counter as it was
    obtain ⟨hawait, hreadings⟩ := ih (g := (g.readOn h 1).1) (h := (g.readOn h 1).2) fun i hi => by
      rw [verdict_readOn]
      exact hrejected (i + 1) (Nat.succ_lt_succ hi)
    rw [Nat.add_right_comm, await_succ, readingsOf, hfirst]
    refine ⟨hawait, ?_⟩
    have hmap : (List.range (j + 1)).map (g.source.reading h) = g.source.reading h 0 ::
        (List.range j).map ((g.readOn h 1).1.source.reading (g.readOn h 1).2) := by
      rw [List.range_succ_eq_map, List.map_cons, List.map_map]
      rfl
    rw [hmap, List.cons_append]
    exact congrArg (g.source.reading h 0 :: ·) hreadings

/-- **A wait in which every reading is rejected** takes all of them for nothing. -/
theorem waited_of_rejected (hrejected : ∀ i < n, verdict seed g h i = none) :
    Waited seed n g h n none := by
  obtain ⟨hawait, hreadings⟩ := await_of_rejected 0 hrejected
  have hend : await seed n g h = ((none, (g.readOn h n).1), (g.readOn h n).2) := hawait
  rw [Nat.add_zero] at hreadings
  constructor
  · rw [hend]
  · exact hreadings.trans (List.append_nil _)
  · rw [hend]
    rfl
  · rw [hend]
    exact congrArg Counter.last (g.counter_readOn h n)
  · rw [hend]
    exact g.source.entropy_readOn h n

/-- **A wait ends with the first reading that is not rejected.** -/
theorem waited_of_first (hj : j < n) (hrejected : ∀ i < j, verdict seed g h i = none)
    (hv : verdict seed g h j = some v) : Waited seed n g h (j + 1) (some v) := by
  obtain ⟨m, rfl⟩ : ∃ m, n = j + (m + 1) := ⟨n - j - 1, by omega⟩
  obtain ⟨hawait, hreadings⟩ := await_of_rejected (m + 1) hrejected
  -- the counter still says what it said at the start
  have hverdict : verdict seed (g.readOn h j).1 (g.readOn h j).2 0 = some v :=
    (congrArg (Counter.value? · _) (g.counter_readOn h j)).trans hv
  obtain ⟨hanswer, hmoved⟩ := attempt_spec seed (g.readOn h j).1 (g.readOn h j).2
  have hsome : (attempt seed (g.readOn h j).1 (g.readOn h j).2).1.1 = some v :=
    hanswer.trans hverdict
  have hlast := hmoved.last
  rw [hsome] at hlast
  rw [await_succ, hsome] at hawait
  rw [readingsOf, hsome] at hreadings
  constructor
  · rw [hawait]
  · rw [hreadings, List.range_succ, List.map_append]
    rfl
  · rw [hawait]
    exact (congrArg Prod.fst (g.source.readOn_succ h j)).symm
  · rw [hawait]
    exact hlast
  · rw [hawait]
    exact (entropy_attempt seed _ _).trans (g.source.entropy_readOn h j)

/-- **A generator waits exactly as long as it must**, for any counter and any readings, of which it
takes at most `n`.

Unless the counter stands at the last value of a millisecond, the first reading gives a value. At
the last value of millisecond `m`, the generator skips all readings up to the first one that is from
a later millisecond or more than ten seconds back; that one is adopted with the seed. If there is
none, all `n` readings are skipped. In any case no entropy is drawn, and a counter that gives no
value stays as it was. No difference of milliseconds overflows for a counter in use. -/
theorem waits_exactly (seed : BitVec 16) (n : ℕ) (g : UnixTime) (h : Host) :
    ((∀ m, (g.counter.counter h).last ≠ some ⟨m, 0xfff, 0x3fff⟩) → 0 < n →
      ∃ v, Waited seed n g h 1 (some v)) ∧
    (∀ m, (g.counter.counter h).last = some ⟨m, 0xfff, 0x3fff⟩ →
      (∀ i < n, Fits (m.toInt - (g.source.reading h i).millisecond)) →
      ((∀ i < n, ¬ (g.source.reading h i).EndsWait m) → Waited seed n g h n none) ∧
      ∀ j < n, (∀ i < j, ¬ (g.source.reading h i).EndsWait m) →
        (g.source.reading h j).EndsWait m →
        ∃ v, Waited seed n g h (j + 1) (some v) ∧ v.Adopts (g.source.reading h j) seed) ∧
    ((g.counter.counter h).InUse → ∀ m, (g.counter.counter h).last = some ⟨m, 0xfff, 0x3fff⟩ →
      ∀ t : Ticks, Fits (m.toInt - t.millisecond)) := by
  refine ⟨fun hlast hn => ?_, fun m hm hfits => ?_, fun hk m hm t => hk.fits hm t⟩
  · have hsome : verdict seed g h 0 ≠ none := by
      intro hnone
      obtain ⟨m, hm⟩ := Counter.isLast_of_value?_eq_none hnone
      exact hlast m hm
    obtain ⟨v, hv⟩ := Option.ne_none_iff_exists'.1 hsome
    exact ⟨v, waited_of_first hn nofun hv⟩
  · have hskip : ∀ i < n, ¬ (g.source.reading h i).EndsWait m → verdict seed g h i = none := by
      intro i hi hno
      have hvalue := Counter.value?_of_last hm (hfits i hi) seed
      rwa [if_neg hno] at hvalue
    refine ⟨fun hno => waited_of_rejected fun i hi => hskip i hi (hno i hi), ?_⟩
    intro j hj hno hends
    have hvalue := Counter.value?_of_last hm (hfits j hj) seed
    rw [if_pos hends] at hvalue
    refine ⟨_, waited_of_first hj (fun i hi => hskip i (Nat.lt_trans hi hj) (hno i hi)) hvalue, ?_⟩
    exact Candidate.adopts (g.source.reading h j) seed

/-- A generator whose counter is used up and whose clock stands still, goes back ten seconds and
then one tick more. -/
def usedUp : UnixTime where
  source := .ofReadings fun i => ([200009999, 100000000, 99999999] : List Ticks).getD i 0
  counter := .own ⟨some ⟨20000, 0xfff, 0x3fff⟩⟩

/-- Ten seconds back, the generator still waits; one tick more ends the wait. -/
theorem waits_exactly_usedUp :
    (∀ i < 5, Fits ((20000 : Int64).toInt -
      (usedUp.source.reading (.start (.ofScript #[]) 0 none 0) i).millisecond)) ∧
    ∃ v, Waited 0xffff 5 usedUp (.start (.ofScript #[]) 0 none 0) 3 (some v) ∧
      v.Adopts 99999999 0xffff := by
  have hfits : ∀ i < 5, Fits ((20000 : Int64).toInt -
      (usedUp.source.reading (.start (.ofScript #[]) 0 none 0) i).millisecond) := by decide
  obtain ⟨-, hused, -⟩ := waits_exactly 0xffff 5 usedUp (.start (.ofScript #[]) 0 none 0)
  exact ⟨hfits, (hused 20000 rfl hfits).2 2 (by decide) (by decide) (by decide)⟩

end UnixTime

end UuidForge
