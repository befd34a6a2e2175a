import UuidForge.Proofs.Layout.Component

/-!
# Components beside version and variant

No component takes a bit of the version nibble, and none takes the upper two bits of octet 8. The
codes of two variants take a third bit there, and to the raw data, the clock sequence and the data
blocks this bit is one of their own.

* `Layout.apart_of_not_overlaps`, `Layout.covers_of_overlaps`: which components meet a variant.
* `Layout.undisturbed_iff`: **components and a variant leave each other alone exactly if they do
  not overlap**, and all components and the version always do.
-/

namespace UuidForge

namespace Layout

/-- The code of the variant has a third bit, and the component takes that bit. -/
def Overlaps (l : Layout) (w : Variant) (c : Component) : Prop :=
  (w = .microsoft ∨ w = .reserved) ∧ l.has c = true ∧
    (c = .raw ∨ c = .clockSequence ∨ ∃ b, c = .data b)

/-- A layout leaves the bits of the standard variant free, and the third bit goes to its clock
sequence and its blocks. -/
structure BesideVariant (l : Layout) : Prop where
  standard : ∀ s ∈ payload ++ l.slices, Variant.rfc4122.slice.Apart s
  time : ∀ s ∈ l.slicesOf .timestamp, Variant.reserved.slice.Apart s
  clock : ∀ s ∈ l.clock, s.Covers 61
  block : ∀ b, l.block b = [] ∨ ∃ s ∈ l.block b, s.Covers 61

theorem besideVariant_ofVersion (v : Version) : (ofVersion v).BesideVariant := by
  unfold ofVersion
  split
  all_goals exact ⟨by decide, by decide, by decide, by rintro (_ | _ | _) <;> decide⟩

section

variable {l : Layout} {w : Variant} {c : Component}

theorem covers_of_overlaps (hl : l.BesideVariant) (h : l.Overlaps w c) :
    ∃ s ∈ l.slicesOf c, s.Covers 61 := by
  obtain ⟨-, hhas, rfl | rfl | ⟨b, rfl⟩⟩ := h
  · have hmem : Slice.trailing ∈ payload := by decide
    exact ⟨Slice.trailing, hmem, by decide⟩
  · obtain ⟨s, hs⟩ := Option.isSome_iff_exists.1 hhas
    exact ⟨s, Option.mem_toList.2 hs, hl.clock s hs⟩
  · refine (hl.block b).resolve_left fun hb => ?_
    rw [has, hb] at hhas
    cases hhas

theorem eq_of_mem_ite {b : Bool} {s t : Slice} (h : s ∈ if b then [t] else []) : s = t := by
  cases b <;> simp_all

theorem apart_of_not_overlaps (hl : l.BesideVariant) (h : ¬ l.Overlaps w c) :
    ∀ s ∈ l.slicesOf c, w.slice.Apart s := by
  intro s hs
  have hshort := hl.standard s (slicesOf_subset hs)
  cases w with
  | rfc4122 => exact hshort
  | ncs =>
    -- the code of one bit is the first of the two
    unfold Slice.Apart Variant.slice at hshort ⊢
    dsimp only at hshort ⊢
    omega
  | _ =>
    have hhas : l.has c = true := by
      by_contra hno
      rw [slicesOf_eq_nil (Bool.eq_false_iff.2 hno)] at hs
      cases hs
    cases c with
    | timestamp => exact hl.time s hs
    | nodeId => exact eq_of_mem_ite hs ▸ by decide
    | domain => exact eq_of_mem_ite hs ▸ by decide
    | localId => exact eq_of_mem_ite hs ▸ by decide
    | _ => exact absurd ⟨by simp, hhas, by simp⟩ h

/-- The codes of three bits differ in the third bit. -/
theorem exists_twin (h : w = .microsoft ∨ w = .reserved) :
    ∃ w', w' ≠ w ∧ (Uuid.nil.withVariant w').withVariant w = Uuid.nil.withVariant w ∧
      ∀ i < 128, (Uuid.nil.withVariant w).bits.getLsbD i =
        (Uuid.nil.withVariant w').bits.getLsbD i ↔ i ≠ 61 := by
  rcases h with rfl | rfl
  · exact ⟨.reserved, by decide, by decide, by decide⟩
  · exact ⟨.microsoft, by decide, by decide, by decide⟩

/-- Where they overlap, a component can be set so that another variant comes out, and the variant
can be set so that another value of the component comes out. -/
theorem exists_disturbed (hl : l.Sound) (hb : l.BesideVariant) (h : l.Overlaps w c) :
    ∃ w', w' ≠ w ∧ (∃ a, l.set (Uuid.nil.withVariant w) c a = .ok (Uuid.nil.withVariant w')) ∧
      l.get ((Uuid.nil.withVariant w').withVariant w) c ≠ l.get (Uuid.nil.withVariant w') c := by
  obtain ⟨w', hne, hback, hbits⟩ := exists_twin h.1
  obtain ⟨s, hs, h61⟩ := covers_of_overlaps hb h
  have hlens := l.lens hl h.2.1
  -- the two UUIDs differ in a bit of the component only
  have hagree : ∀ t : Slice, (∀ s ∈ l.slicesOf c, t.Apart s) →
      t.read (Uuid.nil.withVariant w) = t.read (Uuid.nil.withVariant w') := by
    intro t ht
    refine Slice.read_eq_read_iff.2 fun i hi => ?_
    by_cases h128 : i < 128
    · refine (hbits i h128).2 ?_
      rintro rfl
      exact Slice.not_covers_of_apart (ht s hs) hi h61
    · rw [BitVec.getLsbD_of_ge _ _ (by omega), BitVec.getLsbD_of_ge _ _ (by omega)]
  refine ⟨w', hne, ?_, ?_⟩
  · obtain ⟨a, -, ha⟩ := hlens.set_of_agree hagree
    exact ⟨a, ha⟩
  · intro hget
    rw [hback] at hget
    have hread := (hlens.get_eq_get_iff _ _).1 hget s hs
    exact (hbits 61 (by decide)).1 (Slice.read_eq_read_iff.1 hread 61 h61) rfl

end

/-- **Components and variants.** Under the layout of any version, components never disturb the
version nor the version the components. A variant that was set stays whatever is written to the
components `cs` afterwards exactly if it overlaps with none of them, and setting it leaves exactly
the components alone that it does not overlap with. -/
theorem undisturbed_iff (v : Version) (w : Variant) :
    (∀ u ws u', (ofVersion v).setAll u ws = .ok u' → u'.version = u.version) ∧
      (∀ u v' c, (ofVersion v).get (u.withVersion v') c = (ofVersion v).get u c) ∧
      (∀ cs : List Component,
        (∀ (u : Uuid) ws u', (∀ x ∈ ws, x.1 ∈ cs) →
          (ofVersion v).setAll (u.withVariant w) ws = .ok u' → u'.variant = w) ↔
            ∀ c ∈ cs, ¬ (ofVersion v).Overlaps w c) ∧
      ∀ c, (∀ u : Uuid, (ofVersion v).get (u.withVariant w) c = (ofVersion v).get u c) ↔
        ¬ (ofVersion v).Overlaps w c := by
  have hl := sound_ofVersion v
  have hb := besideVariant_ofVersion v
  have hversion : ∀ c, ∀ s ∈ (ofVersion v).slicesOf c, s.Apart Slice.version :=
    fun c s hs => hl.version s (slicesOf_subset hs)
  refine ⟨?_, ?_, ?_, ?_⟩
  · intro u ws u' h
    exact congrArg Version.mk (read_setAll hl (fun x _ s hs => (hversion x.1 s hs).symm) h)
  · intro u v' c
    exact get_of_agree hl fun s hs => Slice.read_write_of_apart (hversion c s hs) _ _
  · intro cs
    constructor
    · intro h c hc hover
      obtain ⟨w', hne, ⟨a, ha⟩, -⟩ := exists_disturbed hl hb hover
      have hmem : ∀ x ∈ [(⟨c, a⟩ : Write)], x.1 ∈ cs := by simpa using hc
      have hkept := h Uuid.nil _ _ hmem (setAll_cons_eq_ok.2 ⟨_, ha, rfl⟩)
      rw [Uuid.variant_withVariant] at hkept
      exact hne hkept
    · intro h u ws u' hmem hset
      have hread := read_setAll (t := w.slice) hl
        (fun x hx => apart_of_not_overlaps hb (h x.1 (hmem x hx))) hset
      exact Uuid.variant_of_read u' (hread.trans (u.read_withVariant w))
  · intro c
    constructor
    · intro h hover
      obtain ⟨w', -, -, hget⟩ := exists_disturbed hl hb hover
      exact hget (h _)
    · intro h u
      refine get_of_agree hl fun s hs => ?_
      rw [Uuid.withVariant_eq_write]
      exact Slice.read_write_of_apart (apart_of_not_overlaps hb h s hs).symm _ _

/-- Raw data written to a UUID of the Microsoft variant replace the third bit of its code, and
setting the variant replaces the top bit of the clock sequence. -/
theorem disturbed_microsoft :
    ¬ (∀ (u : Uuid) ws u', (ofVersion .v8).setAll (u.withVariant .microsoft) ws = .ok u' →
        u'.variant = .microsoft) ∧
      ¬ ∀ u : Uuid, (ofVersion .v1).get (u.withVariant .microsoft) .clockSequence =
        (ofVersion .v1).get u .clockSequence := by
  refine ⟨fun h => ?_, fun h => ?_⟩
  · have hvariant := h Uuid.nil [⟨.raw, Uuid.max⟩] _ rfl
    exact absurd hvariant (by decide)
  · exact absurd (h Uuid.max) (by decide)

end Layout

end UuidForge
