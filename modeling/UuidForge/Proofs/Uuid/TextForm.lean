import Mathlib.Data.List.Forall2
import Mathlib.Data.Nat.Notation
import UuidForge.Uuid.Text

/-!
# What is read as a UUID

The reader takes a text in either case, and nothing but the canonical text of a UUID in either case.

* `Text.hexValue?_eq_some_iff`: a character is a digit of a value exactly if it is that digit in
  lower case.
* `Text.scan_eq_some_iff`: **a text follows a template exactly if it is the filled template** in
  either case.
* `Text.scan_isSome_iff`: place by place, what a text must be to follow a template.
* `Uuid.text_form`: **exactly the canonical texts are read**, in either case, and each is read as
  the UUID that it was written for.
-/

namespace UuidForge

namespace Text

variable {c : Char} {d : ℕ} {ps : List Place} {cs : List Char} {ds : List ℕ}

/-! ## Characters -/

/-- Only the letters of ASCII have another lower case. -/
theorem toNat_toLower (c : Char) :
    c.toLower.toNat = if 65 ≤ c.toNat ∧ c.toNat ≤ 90 then c.toNat + 32 else c.toNat := by
  have hup : (c.val ≥ 'A'.val ∧ c.val ≤ 'Z'.val) ↔ 65 ≤ c.toNat ∧ c.toNat ≤ 90 := Iff.rfl
  unfold Char.toLower
  split
  · rename_i h
    rw [if_pos (hup.1 h)]
    have h90 : c.toNat ≤ 90 := (hup.1 h).2
    show (c.val + 32).toNat = c.toNat + 32
    rw [UInt32.toNat_add]
    have hv : c.val.toNat = c.toNat := rfl
    have h32 : (32 : UInt32).toNat = 32 := rfl
    omega
  · rename_i h
    rw [if_neg fun hc => h (hup.2 hc)]

theorem toNat_hexDigit : ∀ d < 16, (hexDigit d).toNat = if d < 10 then 48 + d else 87 + d := by
  decide

/-- The three ranges of digits. -/
theorem hexValue?_cases : hexValue? c = some d ↔
    (48 ≤ c.toNat ∧ c.toNat ≤ 57 ∧ c.toNat = 48 + d) ∨
      (97 ≤ c.toNat ∧ c.toNat ≤ 102 ∧ c.toNat = 87 + d) ∨
      (65 ≤ c.toNat ∧ c.toNat ≤ 70 ∧ c.toNat = 55 + d) := by
  have heq : hexValue? c =
      if 48 ≤ c.toNat ∧ c.toNat ≤ 57 then some (c.toNat - 48)
      else if 97 ≤ c.toNat ∧ c.toNat ≤ 102 then some (c.toNat - 87)
      else if 65 ≤ c.toNat ∧ c.toNat ≤ 70 then some (c.toNat - 55)
      else none := rfl
  rw [heq]
  split
  · rw [Option.some.injEq]
    omega
  · split
    · rw [Option.some.injEq]
      omega
    · split
      · rw [Option.some.injEq]
        omega
      · constructor
        · intro h
          cases h
        · omega

/-- **A character is a digit of a value exactly if it is that digit in lower case.** -/
theorem hexValue?_eq_some_iff : hexValue? c = some d ↔ d < 16 ∧ c.toLower = hexDigit d := by
  have hlow := toNat_toLower c
  rw [hexValue?_cases]
  constructor
  · intro h
    have hd : d < 16 := by omega
    have hdigit := toNat_hexDigit d hd
    refine ⟨hd, Char.toNat_inj.1 ?_⟩
    split at hlow <;> split at hdigit <;> omega
  · rintro ⟨hd, h⟩
    have hdigit := toNat_hexDigit d hd
    rw [← Char.toNat_inj] at h
    split at hlow <;> split at hdigit <;> omega

theorem toLower_eq_hyphen_iff : c.toLower = '-' ↔ c = '-' := by
  have hlow := toNat_toLower c
  have h45 : ('-' : Char).toNat = 45 := rfl
  rw [← Char.toNat_inj, ← Char.toNat_inj, hlow, h45]
  split <;> omega

/-- An ASCII hexadecimal digit of either case. -/
def IsHexDigit (c : Char) : Prop :=
  ('0' ≤ c ∧ c ≤ '9') ∨ ('a' ≤ c ∧ c ≤ 'f') ∨ ('A' ≤ c ∧ c ≤ 'F')

theorem hexValue?_isSome_iff : (hexValue? c).isSome ↔ IsHexDigit c := by
  unfold hexValue? IsHexDigit
  split
  · simp_all
  · split
    · simp_all
    · split
      · simp_all
      · simp_all

/-! ## Templates -/

/-- **A text follows a template exactly if it is the filled template in either case.** -/
theorem scan_eq_some_iff : scan ps cs = some ds ↔
    ds.length = ps.count .digit ∧ (∀ d ∈ ds, d < 16) ∧ cs.map Char.toLower = fill ps ds := by
  induction ps generalizing cs ds with
  | nil =>
    cases cs with
    | nil =>
      rw [scan, Option.some.injEq]
      constructor
      · rintro rfl
        exact ⟨rfl, by simp, rfl⟩
      · rintro ⟨hl, -, -⟩
        exact (List.eq_nil_of_length_eq_zero hl).symm
    | cons c cs => simp [scan, fill]
  | cons p ps ih =>
    cases p with
    | hyphen =>
      have hcount : (Place.hyphen :: ps).count .digit = ps.count .digit := by simp
      cases cs with
      | nil => simp [scan, fill]
      | cons c cs =>
        rw [scan, fill, List.map_cons, hcount, List.cons.injEq, toLower_eq_hyphen_iff]
        split
        · rename_i hc
          rw [ih]
          tauto
        · rename_i hc
          simp [hc]
    | digit =>
      have hcount : (Place.digit :: ps).count .digit = ps.count .digit + 1 := by simp
      rw [hcount]
      cases cs with
      | nil =>
        -- the filled template is not empty if there is a digit for its first place
        cases ds with
        | nil => simp [scan]
        | cons d ds => simp [scan, fill]
      | cons c cs =>
        rw [scan]
        cases ds with
        | nil => cases hexValue? c <;> simp
        | cons d ds =>
          rw [fill, List.map_cons, List.cons.injEq, List.length_cons, Nat.add_right_cancel_iff,
            List.forall_mem_cons]
          have hd := hexValue?_eq_some_iff (c := c) (d := d)
          have hrest : scan ps cs = some ds ↔ _ := ih
          cases hv : hexValue? c with
          | none =>
            rw [hv] at hd
            have hno : ¬ (d < 16 ∧ c.toLower = hexDigit d) := fun h => by cases hd.2 h
            constructor
            · intro h
              cases h
            · rintro ⟨-, ⟨h16, -⟩, hlow, -⟩
              exact absurd ⟨h16, hlow⟩ hno
          | some e =>
            rw [hv, Option.some.injEq] at hd
            have hmap : (scan ps cs).map (e :: ·) = some (d :: ds) ↔
                e = d ∧ scan ps cs = some ds := by
              cases scan ps cs <;> simp
            show (scan ps cs).map (e :: ·) = some (d :: ds) ↔ _
            rw [hmap, hd, hrest]
            tauto

theorem map_toLower_fill (h : ∀ d ∈ ds, d < 16) : (fill ps ds).map Char.toLower = fill ps ds := by
  induction ps generalizing ds with
  | nil => rfl
  | cons p ps ih =>
    cases p with
    | hyphen =>
      rw [fill, List.map_cons, ih h]
      rfl
    | digit =>
      cases ds with
      | nil => rfl
      | cons d ds =>
        obtain ⟨hd, hds⟩ := List.forall_mem_cons.1 h
        have hlow := (hexValue?_eq_some_iff.1 (hexValue?_hexDigit hd)).2
        rw [fill, List.map_cons, ih hds, hlow]

/-- What may stand at a place. -/
def Place.Admits : Place → Char → Prop
  | digit, c => IsHexDigit c
  | hyphen, c => c = '-'

theorem scan_isSome_iff : (scan ps cs).isSome ↔ List.Forall₂ Place.Admits ps cs := by
  induction ps generalizing cs with
  | nil => cases cs <;> simp [scan]
  | cons p ps ih =>
    cases cs with
    | nil => cases p <;> simp [scan]
    | cons c cs =>
      rw [List.forall₂_cons, ← ih]
      cases p with
      | hyphen =>
        show (if c = '-' then scan ps cs else none).isSome ↔ c = '-' ∧ _
        split
        · rename_i hc
          simp [hc]
        · rename_i hc
          simp [hc]
      | digit =>
        show (scan (.digit :: ps) (c :: cs)).isSome ↔ IsHexDigit c ∧ _
        rw [← hexValue?_isSome_iff, scan]
        cases hexValue? c with
        | none => simp
        | some d => simp

theorem template_eq : ∀ i (h : i < template.length),
    template[i] = if i ∈ [8, 13, 18, 23] then .hyphen else .digit := by
  decide

theorem forall₂_template_iff : List.Forall₂ Place.Admits template cs ↔ cs.length = 36 ∧
    ∀ i (h : i < cs.length), if i ∈ [8, 13, 18, 23] then cs[i] = '-' else IsHexDigit cs[i] := by
  have hlen : template.length = 36 := by decide
  have hplace : ∀ i (h : i < template.length), ∀ c, template[i].Admits c ↔
      if i ∈ [8, 13, 18, 23] then c = '-' else IsHexDigit c := by
    intro i h c
    rw [template_eq i h]
    split
    · exact Iff.rfl
    · exact Iff.rfl
  rw [List.forall₂_iff_get]
  constructor
  · rintro ⟨hl, h⟩
    exact ⟨hl.symm.trans hlen, fun i hi => (hplace i (by omega) _).1 (h i (by omega) hi)⟩
  · rintro ⟨hl, h⟩
    exact ⟨hlen.trans hl.symm, fun i h₁ h₂ => (hplace i h₁ _).2 (h i h₂)⟩

end Text

namespace Uuid

variable {s : String} {u : Uuid} {ds : List ℕ}

/-- The digits of a UUID are the only ones that make it up. -/
theorem ofNat_value_eq_iff (hl : ds.length = 32) (h16 : ∀ d ∈ ds, d < 16) :
    ofNat (Radix.value 16 ds) = u ↔ ds = Radix.digits 16 32 u.toNat := by
  have hdigits := Radix.digits_value h16
  rw [hl] at hdigits
  have hmod := Radix.value_digits 16 32 (Radix.value 16 ds)
  rw [hdigits] at hmod
  constructor
  · intro h
    have hu : u.toNat = Radix.value 16 ds := by
      rw [← h, toNat_ofNat]
      exact hmod.symm
    rw [hu, hdigits]
  · intro h
    rw [h, Radix.value_digits, Nat.mod_eq_of_lt u.toNat_lt, ofNat_toNat]

/-- **A text is read as a UUID exactly if it is the canonical text of the UUID in either case.** -/
theorem parse?_eq_some_iff : parse? s = some u ↔ s.map Char.toLower = u.text := by
  have hcount : Text.template.count .digit = 32 := by decide
  have htext : s.map Char.toLower = u.text ↔ s.toList.map Char.toLower =
      Text.fill Text.template (Radix.digits 16 32 u.toNat) := by
    rw [← String.toList_inj, String.toList_map, text, String.toList_ofList]
  have h16 : ∀ d ∈ Radix.digits 16 32 u.toNat, d < 16 := fun d hd =>
    Radix.lt_of_mem_digits (by decide) hd
  rw [htext, parse?, Option.map_eq_some_iff]
  constructor
  · rintro ⟨ds, hs, hu⟩
    obtain ⟨hl, hds, hfill⟩ := Text.scan_eq_some_iff.1 hs
    rw [hcount] at hl
    rw [hfill, (ofNat_value_eq_iff hl hds).1 hu]
  · intro h
    have hl : (Radix.digits 16 32 u.toNat).length = 32 := Radix.length_digits ..
    refine ⟨_, Text.scan_eq_some_iff.2 ⟨hl.trans hcount.symm, h16, h⟩, ?_⟩
    exact (ofNat_value_eq_iff hl h16).2 rfl

/-- A canonical text has no letter in upper case. -/
theorem map_toLower_text (u : Uuid) : u.text.map Char.toLower = u.text := by
  rw [← String.toList_inj, String.toList_map, text, String.toList_ofList]
  exact Text.map_toLower_fill fun d hd => Radix.lt_of_mem_digits (by decide) hd

/-- **The form of a text.** A text is read as a UUID exactly if it is the canonical text of the UUID
once its ASCII letters are in lower case; it is refused exactly if it is that of no UUID. What is
read has 36 characters, hyphens at four places and hexadecimal digits at all others, and everything
of this form is read. A canonical text is read as the UUID that it was written for, and what was
read is written back in lower case. -/
theorem text_form :
    (∀ (s : String) (u : Uuid), parse? s = some u ↔ s.map Char.toLower = u.text) ∧
    (∀ s : String, parse? s = none ↔ ∀ u : Uuid, s.map Char.toLower ≠ u.text) ∧
    (∀ s : String, (parse? s).isSome ↔ s.length = 36 ∧ ∀ i (h : i < s.toList.length),
      if i ∈ [8, 13, 18, 23] then s.toList[i] = '-' else Text.IsHexDigit s.toList[i]) ∧
    (∀ u : Uuid, parse? u.text = some u) ∧
    ∀ (s : String) (u : Uuid), parse? s = some u → u.text = s.map Char.toLower := by
  refine ⟨fun s u => parse?_eq_some_iff, fun s => ?_, fun s => ?_, fun u => ?_, fun s u h => ?_⟩
  · rw [Option.eq_none_iff_forall_ne_some]
    exact forall_congr' fun u => not_congr parse?_eq_some_iff
  · have hscan : (parse? s).isSome ↔ (Text.scan Text.template s.toList).isSome := by
      rw [parse?, Option.isSome_map]
    rw [hscan, Text.scan_isSome_iff, Text.forall₂_template_iff, ← String.length_toList]
  · exact parse?_eq_some_iff.2 (map_toLower_text u)
  · exact (parse?_eq_some_iff.1 h).symm

/-- A text in mixed case is read, and written back in lower case. -/
theorem text_form_mixed :
    parse? "6BA7B810-9dad-11D1-80b4-00C04fd430c8" = some namespaceDns ∧
      namespaceDns.text = "6BA7B810-9dad-11D1-80b4-00C04fd430c8".map Char.toLower := by
  have hlow : "6BA7B810-9dad-11D1-80b4-00C04fd430c8".map Char.toLower = namespaceDns.text := by
    rw [← String.toList_inj, String.toList_map, text, String.toList_ofList]
    decide
  have hread := (text_form.1 _ _).2 hlow
  exact ⟨hread, text_form.2.2.2.2 _ _ hread⟩

end Uuid

end UuidForge
