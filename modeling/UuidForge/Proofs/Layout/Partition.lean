import Mathlib.Data.List.Pairwise
import UuidForge.Proofs.Layout.Component

/-!
# Components partition the bits

Under the layout of a version, the components of the version share the 128 bits with the version
nibble and the two bits of the standard variant: every bit belongs to exactly one of them.

* `Version.partition`: the parts cut the 128 bits.
* `Layout.LensPartition.get_setAll`: writes to different components all last.
* `Version.components_partition`: **the components of a version are lenses that partition the
  bits**, with the values that each accepts and what it keeps of them.
-/

namespace UuidForge

/-- The slices cut the 128 bits into parts. -/
structure Partition (ss : List Slice) : Prop where
  fits : ∀ s ∈ ss, s.Fits
  apart : ss.Pairwise Slice.Apart
  cover : ∀ i < 128, ∃ s ∈ ss, s.Covers i

namespace Version

/-- The versions that have components. -/
def laidOut : List Version := [v1, v2, v3, v4, v5, v6, v7, v8]

def components (v : Version) : List Component :=
  match v.toNat with
  | 1 => [.timestamp, .clockSequence, .nodeId]
  | 2 => [.timestamp, .clockSequence, .nodeId, .domain, .localId]
  | 3 => [.data .hash]
  | 4 => [.data .random]
  | 5 => [.data .hash]
  | 6 => [.timestamp, .clockSequence, .nodeId]
  | 7 => [.timestamp, .data .random]
  | 8 => [.data .custom]
  | _ => []

/-- The first point of time that a version can tell. -/
def firstTick (v : Version) : Int := if v = v7 then 0 else Ticks.gregorianEpoch.toInt

/-- The last point of time that a version can tell. -/
def lastTick (v : Version) : Int :=
  if v = v7 then 2 ^ 48 * 10000 - 1 else Ticks.gregorianEpoch.toInt + 2 ^ 60 - 1

/-- The bits of the clock sequence of a version. -/
def clockWidth (v : Version) : ℕ := if v = v2 then 6 else 14

/-- The values that a component of a version can be set to. -/
def Accepts (v : Version) : (c : Component) → c.Value → Prop
  | .timestamp, t => v.firstTick ≤ t.toInt ∧ t.toInt ≤ v.lastTick
  | .clockSequence, n => n < 2 ^ v.clockWidth
  | _, _ => True

/-- What a component of a version keeps of a value: the timestamp is kept down to `2 ^ 32` ticks
in version 2 and to a millisecond in version 7, and data are kept under their mask. -/
def kept (v : Version) : (c : Component) → c.Value → c.Value
  | .timestamp, t =>
    if v = v2 then t.floor Ticks.gregorianEpoch.toInt (2 ^ 32)
    else if v = v7 then t.floor 0 10000
    else t
  | .data b, x => ((Layout.ofVersion v).dataMask b).toOption.elim x fun m => ⟨x.bits &&& m.bits⟩
  | .raw, x => x.payload
  | .clockSequence, n => n
  | .nodeId, n => n
  | .domain, d => d
  | .localId, n => n

/-- The version nibble, the bits of the standard variant and those of the components. -/
def parts (v : Version) : List Slice :=
  Slice.version :: Variant.rfc4122.slice :: v.components.flatMap (Layout.ofVersion v).slicesOf

variable {v : Version} {c : Component}

theorem eq_of_mem_laidOut (hv : v ∈ laidOut) :
    v = v1 ∨ v = v2 ∨ v = v3 ∨ v = v4 ∨ v = v5 ∨ v = v6 ∨ v = v7 ∨ v = v8 := by
  simpa only [laidOut, List.mem_cons, List.not_mem_nil, or_false] using hv

theorem partition (hv : v ∈ laidOut) : Partition v.parts := by
  rcases eq_of_mem_laidOut hv with rfl | rfl | rfl | rfl | rfl | rfl | rfl | rfl
  all_goals exact ⟨by decide, by decide, by decide⟩

theorem has_iff (hv : v ∈ laidOut) (c : Component) :
    (Layout.ofVersion v).has c = true ↔ c = .raw ∨ c ∈ v.components := by
  rcases eq_of_mem_laidOut hv with rfl | rfl | rfl | rfl | rfl | rfl | rfl | rfl
  all_goals rcases c with _ | _ | _ | _ | _ | _ | (_ | _ | _) <;> decide

theorem time_spec (hv : v ∈ laidOut) (hc : .timestamp ∈ v.components) :
    ∃ f, (Layout.ofVersion v).time = some f ∧ f.scale.first = v.firstTick ∧
      f.scale.last = v.lastTick ∧ ∀ t, t.floor f.scale.first f.step = v.kept .timestamp t := by
  rcases eq_of_mem_laidOut hv with rfl | rfl | rfl | rfl | rfl | rfl | rfl | rfl
  · exact ⟨_, rfl, by decide, by decide, fun t => t.floor_one _⟩
  · exact ⟨_, rfl, by decide, by decide, fun _ => rfl⟩
  · exact absurd hc (by decide)
  · exact absurd hc (by decide)
  · exact absurd hc (by decide)
  · exact ⟨_, rfl, by decide, by decide, fun t => t.floor_one _⟩
  · exact ⟨_, rfl, by decide, by decide, fun _ => rfl⟩
  · exact absurd hc (by decide)

theorem clock_spec (hv : v ∈ laidOut) (hc : .clockSequence ∈ v.components) :
    ∃ s, (Layout.ofVersion v).clock = some s ∧ s.width = v.clockWidth := by
  rcases eq_of_mem_laidOut hv with rfl | rfl | rfl | rfl | rfl | rfl | rfl | rfl
  · exact ⟨_, rfl, by decide⟩
  · exact ⟨_, rfl, by decide⟩
  · exact absurd hc (by decide)
  · exact absurd hc (by decide)
  · exact absurd hc (by decide)
  · exact ⟨_, rfl, by decide⟩
  · exact absurd hc (by decide)
  · exact absurd hc (by decide)

theorem accepts_eq (hv : v ∈ laidOut) (hc : c ∈ v.components) :
    (Layout.ofVersion v).Accepts c = v.Accepts c := by
  cases c with
  | timestamp =>
    obtain ⟨f, hf, hfirst, hlast, -⟩ := time_spec hv hc
    funext t
    rw [Layout.Accepts, hf, Option.elim_some, hfirst, hlast, Accepts]
  | clockSequence =>
    obtain ⟨s, hs, hwidth⟩ := clock_spec hv hc
    funext n
    rw [Layout.Accepts, hs, Option.elim_some, hwidth, Accepts]
  | _ => rfl

theorem kept_eq (hv : v ∈ laidOut) (hc : c ∈ v.components) :
    (Layout.ofVersion v).kept c = v.kept c := by
  cases c with
  | timestamp =>
    obtain ⟨f, hf, -, -, hkept⟩ := time_spec hv hc
    funext t
    rw [Layout.kept, hf, Option.elim_some, hkept]
  | data b =>
    funext x
    rw [Layout.kept, kept, Layout.dataMask_of_has ((has_iff hv _).2 (Or.inr hc))]
    rfl
  | _ => rfl

theorem parts_apart (hv : v ∈ laidOut) (hc : c ∈ v.components)
    {s : Slice} (hs : s ∈ (Layout.ofVersion v).slicesOf c) :
    Slice.version.Apart s ∧ Variant.rfc4122.slice.Apart s ∧
      ∀ c' ∈ v.components, c' ≠ c → ∀ t ∈ (Layout.ofVersion v).slicesOf c', t.Apart s := by
  have hmem : s ∈ v.components.flatMap (Layout.ofVersion v).slicesOf :=
    List.mem_flatMap.2 ⟨c, hc, hs⟩
  obtain ⟨hversion, hrest⟩ := List.pairwise_cons.1 (partition hv).apart
  obtain ⟨hvariant, hcomponents⟩ := List.pairwise_cons.1 hrest
  refine ⟨hversion s (List.mem_cons_of_mem _ hmem), hvariant s hmem, fun c' hc' hne t ht => ?_⟩
  have hsymm : Std.Symm fun c c' => ∀ x ∈ (Layout.ofVersion v).slicesOf c,
      ∀ y ∈ (Layout.ofVersion v).slicesOf c', x.Apart y :=
    ⟨fun _ _ h x hx y hy => (h y hy x hx).symm⟩
  exact (List.pairwise_flatMap.1 hcomponents).2.forall hc' hc hne t ht s hs

end Version

/-- The components `cs` of a layout are lenses that partition the bits, with the values that they
accept and what they keep of them. -/
structure Layout.LensPartition (l : Layout) (cs : List Component)
    (accepts : (c : Component) → c.Value → Prop) (kept : (c : Component) → c.Value → c.Value) :
    Prop where
  /-- The version nibble, the two bits of the standard variant and the components cut the bits. -/
  partition : Partition (Slice.version :: Variant.rfc4122.slice :: cs.flatMap l.slicesOf)
  /-- Every component is a lens on its slices. -/
  lens : ∀ c ∈ cs, Lens (l.slicesOf c) (l.get · c) (l.set · c) (accepts c) (kept c)
  /-- A write to a component changes no other part. -/
  others : ∀ c ∈ cs, ∀ u a u', l.set u c a = .ok u' →
    Slice.version.read u' = Slice.version.read u ∧
      Variant.rfc4122.slice.read u' = Variant.rfc4122.slice.read u ∧
      ∀ c' ∈ cs, c' ≠ c → l.get u' c' = l.get u c'
  /-- What is not among the components is refused. -/
  refused : ∀ c r, c ∉ cs → c.refusal = some r → ∀ u,
    l.get u c = .error (.notSupported r) ∧ ∀ a, l.set u c a = .error (.notSupported r)

namespace Layout.LensPartition

variable {l : Layout} {cs : List Component} {accepts : (c : Component) → c.Value → Prop}
  {kept : (c : Component) → c.Value → c.Value} {u u' : Uuid} {ws : List Write}

/-- **A run of writes succeeds exactly if all values are accepted.** -/
theorem exists_setAll_iff (h : l.LensPartition cs accepts kept) (hws : ∀ x ∈ ws, x.1 ∈ cs) :
    (∃ u', l.setAll u ws = .ok u') ↔ ∀ x ∈ ws, accepts x.1 x.2 := by
  induction ws generalizing u with
  | nil => exact ⟨fun _ x hx => absurd hx List.not_mem_nil, fun _ => ⟨u, rfl⟩⟩
  | cons x ws ih =>
    obtain ⟨hx, hws⟩ := List.forall_mem_cons.1 hws
    rw [List.forall_mem_cons, ← (h.lens x.1 hx).set_ok_iff u x.2]
    constructor
    · rintro ⟨u', hset⟩
      obtain ⟨u₁, h₁, h₂⟩ := setAll_cons_eq_ok.1 hset
      exact ⟨⟨u₁, h₁⟩, (ih hws).1 ⟨u', h₂⟩⟩
    · rintro ⟨⟨u₁, h₁⟩, hrest⟩
      obtain ⟨u', h₂⟩ := (ih (u := u₁) hws).2 hrest
      exact ⟨u', setAll_cons_eq_ok.2 ⟨u₁, h₁, h₂⟩⟩

theorem get_setAll_of_ne (h : l.LensPartition cs accepts kept) {c : Component} (hc : c ∈ cs)
    (hws : ∀ x ∈ ws, x.1 ∈ cs) (hne : ∀ x ∈ ws, c ≠ x.1) (hset : l.setAll u ws = .ok u') :
    l.get u' c = l.get u c := by
  induction ws generalizing u with
  | nil =>
    cases hset
    rfl
  | cons x ws ih =>
    obtain ⟨hx, hws⟩ := List.forall_mem_cons.1 hws
    obtain ⟨hxc, hne⟩ := List.forall_mem_cons.1 hne
    obtain ⟨u₁, h₁, h₂⟩ := setAll_cons_eq_ok.1 hset
    rw [ih hws hne h₂]
    exact (h.others x.1 hx u x.2 u₁ h₁).2.2 c hc hxc

/-- **Writes to different components all last**, in whatever order they are made. -/
theorem get_setAll (h : l.LensPartition cs accepts kept) (hws : ∀ x ∈ ws, x.1 ∈ cs)
    (hnd : ws.Pairwise (·.1 ≠ ·.1)) (hset : l.setAll u ws = .ok u') :
    ∀ x ∈ ws, l.get u' x.1 = .ok (kept x.1 x.2) := by
  induction ws generalizing u with
  | nil => exact fun x hx => absurd hx List.not_mem_nil
  | cons x ws ih =>
    obtain ⟨hx, hws⟩ := List.forall_mem_cons.1 hws
    obtain ⟨hxne, hnd⟩ := List.pairwise_cons.1 hnd
    obtain ⟨u₁, h₁, h₂⟩ := setAll_cons_eq_ok.1 hset
    rw [List.forall_mem_cons]
    refine ⟨?_, ih hws hnd h₂⟩
    rw [h.get_setAll_of_ne hx hws hxne h₂]
    exact (h.lens x.1 hx).get_set u x.2 u₁ h₁

end Layout.LensPartition

namespace Version

variable {v : Version} {c : Component}

theorem lens (hv : v ∈ laidOut) (hc : c ∈ v.components) :
    Lens ((Layout.ofVersion v).slicesOf c) ((Layout.ofVersion v).get · c)
      ((Layout.ofVersion v).set · c) (v.Accepts c) (v.kept c) := by
  rw [← accepts_eq hv hc, ← kept_eq hv hc]
  exact Layout.lens (Layout.sound_ofVersion v) ((has_iff hv c).2 (Or.inr hc))

theorem lensPartition (hv : v ∈ laidOut) :
    (Layout.ofVersion v).LensPartition v.components v.Accepts v.kept := by
  refine ⟨partition hv, fun c hc => lens hv hc, ?_, ?_⟩
  · intro c hc u a u' h
    have hread := (lens hv hc).read_set u a u' h
    refine ⟨hread _ fun s hs => (parts_apart hv hc hs).1,
      hread _ fun s hs => (parts_apart hv hc hs).2.1, fun c' hc' hne => ?_⟩
    exact (lens hv hc').get_of_agree fun t ht =>
      hread t fun s hs => (parts_apart hv hc hs).2.2 c' hc' hne t ht
  · intro c r hc hr u
    refine Layout.refused (Bool.eq_false_iff.2 fun hhas => ?_) hr u
    rcases (has_iff hv c).1 hhas with rfl | hmem
    · cases hr
    · exact hc hmem

/-- **The components of a version are lenses that partition the bits**, and what they do not accept
is refused with the bounds. -/
theorem components_partition (hv : v ∈ laidOut) :
    (Layout.ofVersion v).LensPartition v.components v.Accepts v.kept ∧
      (.timestamp ∈ v.components → ∀ u t, ¬ (v.firstTick ≤ t.toInt ∧ t.toInt ≤ v.lastTick) →
        (Layout.ofVersion v).setTimestamp u t =
          .error (.outOfRange (.timestamp v.firstTick v.lastTick))) ∧
      (.clockSequence ∈ v.components → ∀ u n, ¬ n < 2 ^ v.clockWidth →
        (Layout.ofVersion v).setClockSequence u n =
          .error (.outOfRange (.clockSequence v.clockWidth))) := by
  refine ⟨lensPartition hv, ?_, ?_⟩
  · intro hc u t ht
    obtain ⟨f, hf, hfirst, hlast, -⟩ := time_spec hv hc
    rw [← hfirst, ← hlast] at ht
    rw [Layout.setTimestamp, hf, ← hfirst, ← hlast]
    exact TimeField.write_eq_error ((Layout.sound_ofVersion v).time f hf) ht
  · intro hc u n hn
    obtain ⟨s, hs, hwidth⟩ := clock_spec hv hc
    rw [← hwidth, ← Nat.one_shiftLeft] at hn
    rw [Layout.setClockSequence, hs, ← hwidth]
    exact if_neg hn

/-- Version 2 keeps of the start of 1970 the step that it lies in, which began half a minute
before, and refuses a clock sequence of seven bits. -/
theorem components_partition_dceSecurity : v2 ∈ laidOut ∧
    (∃ u, (Layout.ofVersion v2).setTimestamp Uuid.nil 0 = .ok u ∧
      (Layout.ofVersion v2).timestamp u = .ok (-327237632)) ∧
    (Layout.ofVersion v2).setClockSequence Uuid.nil 64 =
      .error (.outOfRange (.clockSequence 6)) := by
  have hv : v2 ∈ laidOut := by decide
  obtain ⟨hparts, -, hclock⟩ := components_partition hv
  have hlens := hparts.lens .timestamp (by decide)
  obtain ⟨u, hu⟩ := (hlens.set_ok_iff Uuid.nil 0).2 ⟨by decide, by decide⟩
  have hkept : v2.kept .timestamp 0 = (-327237632 : Ticks) := by decide
  exact ⟨hv, ⟨u, hu, (hlens.get_set Uuid.nil 0 u hu).trans (congrArg Except.ok hkept)⟩,
    hclock (by decide) Uuid.nil 64 (by decide)⟩

end Version

end UuidForge
