import Mathlib.Data.Nat.Notation
import Mathlib.Tactic.Tauto
import UuidForge.Uuid.Text

/-!
# The order of canonical texts

Digits of one length compare as the numbers do, hexadecimal digits as their values, and hyphens
stand in the same places of all canonical texts.

* `Radix.digits_lt_digits_iff`: digits are in the order of the numbers.
* `Text.fill_lt_fill_iff`: texts are in the order of their digits.
* `Uuid.text_lt_text_iff`: **canonical texts are in the order of the UUIDs.**
-/

namespace UuidForge

theorem concat_lt_concat_iff {xs ys : List ℕ} (h : xs.length = ys.length) {a b : ℕ} :
    xs ++ [a] < ys ++ [b] ↔ xs < ys ∨ xs = ys ∧ a < b := by
  induction xs generalizing ys with
  | nil =>
    cases List.eq_nil_of_length_eq_zero h.symm
    simp [List.cons_lt_cons_iff]
  | cons x xs ih =>
    obtain ⟨y, ys, rfl⟩ := List.exists_cons_of_length_eq_add_one h.symm
    rw [List.cons_append, List.cons_append, List.cons_lt_cons_iff, List.cons_lt_cons_iff,
      ih (by simpa using h), List.cons.injEq]
    tauto

namespace Radix

variable {b n v w : ℕ}

theorem digits_eq_digits_iff (hv : v < Nat.pow b n) (hw : w < Nat.pow b n) :
    digits b n v = digits b n w ↔ v = w := by
  refine ⟨fun h => ?_, congrArg _⟩
  have := congrArg (value b) h
  rwa [value_digits, value_digits, Nat.mod_eq_of_lt hv, Nat.mod_eq_of_lt hw] at this

/-- **Digits are in the order of the numbers.** -/
theorem digits_lt_digits_iff (hb : 0 < b) (hv : v < Nat.pow b n) (hw : w < Nat.pow b n) :
    digits b n v < digits b n w ↔ v < w := by
  induction n generalizing v w with
  | zero =>
    have hv : v = 0 := Nat.lt_one_iff.1 hv
    have hw : w = 0 := Nat.lt_one_iff.1 hw
    subst hv hw
    simp [digits]
  | succ n ih =>
    have hv' : v / b < Nat.pow b n := Nat.div_lt_of_lt_mul (by rwa [Nat.mul_comm])
    have hw' : w / b < Nat.pow b n := Nat.div_lt_of_lt_mul (by rwa [Nat.mul_comm])
    rw [digits, digits, concat_lt_concat_iff (by simp), ih hv' hw', digits_eq_digits_iff hv' hw']
    have h1 := Nat.div_add_mod v b
    have h2 := Nat.div_add_mod w b
    have h3 := Nat.mod_lt v hb
    have h4 := Nat.mod_lt w hb
    -- the last digit decides between equal heads
    constructor
    · rintro (h | ⟨h, hm⟩)
      · exact Nat.lt_of_div_lt_div h
      · rw [h] at h1
        omega
    · intro h
      rcases Nat.lt_or_eq_of_le (Nat.div_le_div_right (c := b) (Nat.le_of_lt h)) with hd | hd
      · exact Or.inl hd
      · rw [hd] at h1
        exact Or.inr ⟨hd, by omega⟩

end Radix

namespace Text

theorem hexDigit_lt_iff : ∀ d < 16, ∀ e < 16,
    (hexDigit d < hexDigit e ↔ d < e) ∧ (hexDigit d = hexDigit e ↔ d = e) := by
  decide

/-- **Texts are in the order of their digits.** -/
theorem fill_lt_fill_iff {ps : List Place} {ds es : List ℕ} (hd : ds.length = ps.count .digit)
    (he : es.length = ps.count .digit) (hds : ∀ d ∈ ds, d < 16) (hes : ∀ e ∈ es, e < 16) :
    fill ps ds < fill ps es ↔ ds < es := by
  induction ps generalizing ds es with
  | nil =>
    cases List.eq_nil_of_length_eq_zero hd
    cases List.eq_nil_of_length_eq_zero he
    simp [fill]
  | cons p ps ih =>
    cases p with
    | hyphen =>
      -- a hyphen stands in both texts
      simp only [fill, List.cons_lt_cons_self]
      exact ih (by simpa using hd) (by simpa using he) hds hes
    | digit =>
      rw [List.count_cons_self] at hd he
      obtain ⟨d, ds, rfl⟩ := List.exists_cons_of_length_eq_add_one hd
      obtain ⟨e, es, rfl⟩ := List.exists_cons_of_length_eq_add_one he
      obtain ⟨hlt, heq⟩ := hexDigit_lt_iff d (hds d (by simp)) e (hes e (by simp))
      simp only [fill]
      rw [List.cons_lt_cons_iff, List.cons_lt_cons_iff, hlt, heq,
        ih (by simpa using hd) (by simpa using he) (fun x hx => hds x (by simp [hx]))
          fun x hx => hes x (by simp [hx])]

end Text

/-- **Canonical texts are in the order of the UUIDs.** -/
theorem Uuid.text_lt_text_iff {u v : Uuid} : u.text < v.text ↔ u < v := by
  have hl : ∀ u : Uuid, (Radix.digits 16 32 u.toNat).length = Text.template.count .digit := by
    intro u
    rw [Radix.length_digits]
    decide
  have h16 : ∀ u : Uuid, ∀ d ∈ Radix.digits 16 32 u.toNat, d < 16 := fun u d hd =>
    Radix.lt_of_mem_digits (by decide) hd
  rw [text, text, String.lt_iff, String.toList_ofList, String.toList_ofList,
    Text.fill_lt_fill_iff (hl u) (hl v) (h16 u) (h16 v),
    Radix.digits_lt_digits_iff (by decide) u.toNat_lt v.toNat_lt, lt_iff_toNat]

end UuidForge
