import UuidForge.Proofs.Layout.TimeField
import UuidForge.Proofs.Uuid.Stamp

/-!
# Components of a layout

The operations of a layout on its components, as one pair of operations that takes the component
as an argument.

* `Layout.refused`: what a layout does not have is refused.
* `Layout.lens`: **each component that a sound layout has is a lens on its slices.**
* `Layout.read_setAll`: a run of writes touches nothing that lies apart from what it writes.
* `Layout.sound_ofVersion`: the layouts of all versions are sound.
-/

namespace UuidForge

/-- What is read from a UUID and written to it under a layout. -/
inductive Component
  | raw
  | timestamp
  | clockSequence
  | nodeId
  | domain
  | localId
  | data (b : Block)
  deriving DecidableEq, Repr

namespace Component

abbrev Value : Component → Type
  | raw => Uuid
  | timestamp => Ticks
  | clockSequence => ℕ
  | nodeId => NodeId
  | domain => LocalDomain
  | localId => BitVec 32
  | data _ => Uuid

/-- The refusal of a component that a layout does not have; the raw data are never refused. -/
def refusal : Component → Option Unsupported
  | raw => none
  | timestamp => some .timestamp
  | clockSequence => some .clockSequence
  | nodeId => some .nodeId
  | domain => some .domain
  | localId => some .localId
  | data b => some b.unsupported

end Component

namespace Layout

def get (l : Layout) (u : Uuid) : (c : Component) → Except Error c.Value
  | .raw => .ok u.payload
  | .timestamp => l.timestamp u
  | .clockSequence => l.clockSequence u
  | .nodeId => l.nodeId u
  | .domain => l.domain u
  | .localId => l.localId u
  | .data b => l.data u b

def set (l : Layout) (u : Uuid) : (c : Component) → c.Value → Except Error Uuid
  | .raw, x => .ok (u.setPayload x)
  | .timestamp, t => l.setTimestamp u t
  | .clockSequence, n => l.setClockSequence u n
  | .nodeId, n => l.setNodeId u n
  | .domain, d => l.setDomain u d
  | .localId, n => l.setLocalId u n
  | .data b, x => l.setData u b x

/-- A write: a component and the value for it. -/
abbrev Write := (c : Component) × c.Value

/-- Writes to components, one after the other. -/
def setAll (l : Layout) (u : Uuid) (ws : List Write) : Except Error Uuid :=
  ws.foldlM (fun u x => l.set u x.1 x.2) u

def has (l : Layout) : Component → Bool
  | .raw => true
  | .timestamp => l.time.isSome
  | .clockSequence => l.clock.isSome
  | .nodeId => l.hasNode
  | .domain => l.hasLocalId
  | .localId => l.hasLocalId
  | .data b => !(l.block b).isEmpty

/-- Where a component is kept. -/
def slicesOf (l : Layout) : Component → List Slice
  | .raw => payload
  | .timestamp => (l.time.map TimeField.slices).getD []
  | .clockSequence => l.clock.toList
  | .nodeId => if l.hasNode then [Slice.node] else []
  | .domain => if l.hasLocalId then [Slice.clockLow] else []
  | .localId => if l.hasLocalId then [Slice.timeLow] else []
  | .data b => l.block b

/-- The values that a component can be set to. -/
def Accepts (l : Layout) : (c : Component) → c.Value → Prop
  | .timestamp, t => l.time.elim True fun f => f.scale.first ≤ t.toInt ∧ t.toInt ≤ f.scale.last
  | .clockSequence, n => l.clock.elim True fun s => n < 2 ^ s.width
  | _, _ => True

/-- What a component keeps of a value. -/
def kept (l : Layout) : (c : Component) → c.Value → c.Value
  | .raw, x => x.payload
  | .timestamp, t => l.time.elim t fun f => t.floor f.scale.first f.step
  | .data b, x => ⟨x.bits &&& maskOf (l.block b)⟩
  | .clockSequence, n => n
  | .nodeId, n => n
  | .domain, d => d
  | .localId, n => n

variable {l : Layout} {c : Component}

/-- **What a layout does not have is refused**, to be read and to be written. -/
theorem refused {r : Unsupported} (h : l.has c = false) (hr : c.refusal = some r) (u : Uuid) :
    l.get u c = .error (.notSupported r) ∧ ∀ a, l.set u c a = .error (.notSupported r) := by
  cases c with
  | raw => cases h
  | timestamp =>
    have hl : l.time = none := Option.isSome_eq_false_iff.1 h |> Option.isNone_iff_eq_none.1
    cases hr
    simp [get, set, timestamp, setTimestamp, hl]
  | clockSequence =>
    have hl : l.clock = none := Option.isSome_eq_false_iff.1 h |> Option.isNone_iff_eq_none.1
    cases hr
    simp [get, set, clockSequence, setClockSequence, hl]
  | nodeId | domain | localId =>
    cases l
    cases h
    cases hr
    exact ⟨rfl, fun _ => rfl⟩
  | data b =>
    have hl : (l.block b).isEmpty = true := by simpa [has] using h
    cases hr
    simp [get, set, data, setData, dataMask, hl, Except.map]

theorem slicesOf_subset : l.slicesOf c ⊆ payload ++ l.slices := by
  intro s hs
  cases c with
  | data b => cases b <;> simp_all [slicesOf, slices, block]
  | _ => simp_all [slicesOf, slices]

theorem slicesOf_eq_nil (h : l.has c = false) : l.slicesOf c = [] := by
  cases c <;> simp_all [has, slicesOf]

/-- A layout whose fields fit and stay away from the version nibble. -/
structure Sound (l : Layout) : Prop where
  time : ∀ f ∈ l.time, f.Sound
  clock : ∀ s ∈ l.clock, s.Fits
  version : ∀ s ∈ payload ++ l.slices, s.Apart Slice.version

theorem lens_time {f : TimeField} (hl : l.time = some f) (hf : f.Sound) :
    Lens (l.slicesOf .timestamp) (l.get · .timestamp) (l.set · .timestamp) (l.Accepts .timestamp)
      (l.kept .timestamp) := by
  cases l
  cases hl
  exact f.lens hf

theorem lens_clock {s : Slice} (hl : l.clock = some s) (hs : s.Fits) :
    Lens (l.slicesOf .clockSequence) (l.get · .clockSequence) (l.set · .clockSequence)
      (l.Accepts .clockSequence) (l.kept .clockSequence) := by
  have hset : ∀ u (n : ℕ), l.set u .clockSequence n =
      if n < 2 ^ s.width then .ok (s.write u (BitVec.ofNat s.width n))
      else .error (.outOfRange (.clockSequence s.width)) := by
    intro u n
    simp only [set, setClockSequence, hl, Nat.one_shiftLeft]
  cases l
  cases hl
  refine Lens.of_slice hs (fun _ => rfl) (fun u n hn => (hset u n).trans (if_pos hn)) ?_ ?_ ?_
  · intro u n u' h
    rw [hset] at h
    split at h
    · assumption
    · cases h
  · intro b
    exact ⟨b.isLt, by rw [BitVec.ofNat_toNat, BitVec.setWidth_eq]⟩
  · intro n hn
    rw [BitVec.toNat_ofNat, Nat.mod_eq_of_lt hn]

theorem dataMask_of_has {b : Block} (hl : l.has (.data b) = true) :
    l.dataMask b = .ok ⟨maskOf (l.block b)⟩ := by
  rw [has, Bool.not_eq_true'] at hl
  rw [dataMask, hl]
  rfl

theorem lens_data {b : Block} (hl : l.has (.data b) = true) :
    Lens (l.slicesOf (.data b)) (l.get · (.data b)) (l.set · (.data b)) (l.Accepts (.data b))
      (l.kept (.data b)) := by
  refine Lens.of_mask (fun u => ?_) (fun u x => ?_) fun _ => rfl
  · rw [get, data, dataMask_of_has hl]
    rfl
  · rw [set, setData, dataMask_of_has hl]
    rfl

/-- **Each component that a sound layout has is a lens.** -/
theorem lens (hl : l.Sound) (hc : l.has c = true) :
    Lens (l.slicesOf c) (l.get · c) (l.set · c) (l.Accepts c) (l.kept c) := by
  cases c with
  | raw => exact Lens.of_mask (fun _ => rfl) (fun _ _ => rfl) fun _ => rfl
  | timestamp =>
    obtain ⟨f, hf⟩ := Option.isSome_iff_exists.1 hc
    exact lens_time hf (hl.time f hf)
  | clockSequence =>
    obtain ⟨s, hs⟩ := Option.isSome_iff_exists.1 hc
    exact lens_clock hs (hl.clock s hs)
  | nodeId | domain | localId =>
    -- a slice of its own, which keeps every value as it is
    cases l
    cases hc
    exact Lens.of_slice (by decide) (fun _ => rfl) (fun _ _ _ => rfl) (fun _ _ _ _ => trivial)
      (fun _ => ⟨trivial, rfl⟩) fun _ _ => rfl
  | data b => exact lens_data hc

section

variable {u u' v : Uuid} {t : Slice}

theorem set_eq_error (h : l.has c = false) (u : Uuid) (a : c.Value) :
    ∃ e, l.set u c a = .error e := by
  have hr : ∃ r, c.refusal = some r := by
    cases c with
    | raw => cases h
    | _ => exact ⟨_, rfl⟩
  obtain ⟨r, hr⟩ := hr
  exact ⟨_, (refused h hr u).2 a⟩

theorem read_set {a : c.Value} (hl : l.Sound) (ht : ∀ s ∈ l.slicesOf c, t.Apart s)
    (h : l.set u c a = .ok u') : t.read u' = t.read u := by
  cases hc : l.has c with
  | true => exact (lens hl hc).read_set u a u' h t ht
  | false =>
    obtain ⟨e, he⟩ := set_eq_error hc u a
    rw [he] at h
    cases h

theorem setAll_cons_eq_ok {x : Write} {ws : List Write} :
    l.setAll u (x :: ws) = .ok u' ↔
      ∃ u₁, l.set u x.1 x.2 = .ok u₁ ∧ l.setAll u₁ ws = .ok u' := by
  rw [setAll, List.foldlM_cons]
  exact bind_eq_ok

/-- **Writes touch nothing that lies apart** from all components written. -/
theorem read_setAll {ws : List Write} (hl : l.Sound)
    (ht : ∀ x ∈ ws, ∀ s ∈ l.slicesOf x.1, t.Apart s) (h : l.setAll u ws = .ok u') :
    t.read u' = t.read u := by
  induction ws generalizing u with
  | nil =>
    cases h
    rfl
  | cons x ws ih =>
    obtain ⟨u₁, h₁, h₂⟩ := setAll_cons_eq_ok.1 h
    have hrest := ih (fun y hy => ht y (List.mem_cons_of_mem _ hy)) h₂
    exact hrest.trans (read_set hl (ht x List.mem_cons_self) h₁)

theorem get_of_agree (hl : l.Sound) (h : ∀ s ∈ l.slicesOf c, s.read u = s.read v) :
    l.get u c = l.get v c := by
  cases hc : l.has c with
  | true => exact (lens hl hc).get_of_agree h
  | false =>
    cases c with
    | raw => cases hc
    | _ => exact (refused hc rfl u).1.trans (refused hc rfl v).1.symm

end

/-- A layout is sound if its time field is, its clock sequence fits, and nothing meets the
version. -/
theorem sound_of_time {f : TimeField} (hl : l.time = some f) (hf : f.Sound)
    (hclock : ∀ s ∈ l.clock, s.Fits)
    (hversion : ∀ s ∈ payload ++ l.slices, s.Apart Slice.version) : l.Sound := by
  refine ⟨?_, hclock, hversion⟩
  rw [hl]
  rintro g ⟨⟩
  exact hf

/-- **The layouts of all versions are sound.** -/
theorem sound_ofVersion (v : Version) : (ofVersion v).Sound := by
  unfold ofVersion
  split
  case h_1 | h_2 | h_6 =>
    refine sound_of_time rfl ⟨TimeScale.gregorian_sound, ?_, ?_, ?_⟩ ?_ ?_ <;> decide
  case h_7 =>
    refine sound_of_time rfl ⟨TimeScale.unixMilliseconds_sound, ?_, ?_, ?_⟩ ?_ ?_ <;> decide
  -- the other layouts have no timestamp
  all_goals exact ⟨by rintro f ⟨⟩, by decide, by decide⟩

end Layout

end UuidForge
