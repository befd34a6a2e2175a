import Mathlib.Data.List.Forall2
import Mathlib.Data.List.TakeWhile
import UuidForge.Proofs.Uuid.TextForm
import UuidForge.Text

/-!
# What a text spells

The readers of small texts, told by the texts that they read.

* `Text.trim_eq_iff`: trimming takes away white space at the ends, and all of it.
* `Text.splitAt_eq_splitOn`: a text is cut at every separator.
* `Text.number?_eq_some_iff`: **a number is read from the texts that spell it**, and from no others.
-/

namespace UuidForge.Text

/-- A list is read element by element. -/
theorem mapM_eq_some_iff {α β : Type} {f : α → Option β} {xs : List α} {ys : List β} :
    xs.mapM f = some ys ↔ List.Forall₂ (fun x y => f x = some y) xs ys := by
  induction xs generalizing ys with
  | nil => simp [eq_comm]
  | cons x xs ih =>
    rw [List.mapM_cons]
    constructor
    · intro h
      obtain ⟨y, hy, zs, hzs, hys⟩ :
          ∃ y, f x = some y ∧ ∃ zs, xs.mapM f = some zs ∧ y :: zs = ys := by
        simpa [Option.bind_eq_some_iff] using h
      rw [← hys]
      exact .cons hy (ih.1 hzs)
    · intro h
      cases h with
      | cons hy hzs =>
        rw [hy, ih.2 hzs]
        rfl

/-! ## White space at the ends -/

/-- The first text is the second one between white space, and that one has none at its ends. -/
structure Trims (cs ds : List Char) : Prop where
  around : ∃ front back, cs = front ++ ds ++ back ∧ (∀ c ∈ front, isBlank c) ∧
    ∀ c ∈ back, isBlank c
  first : ∀ c ∈ ds.head?, ¬ isBlank c
  last : ∀ c ∈ ds.getLast?, ¬ isBlank c

variable {cs ds : List Char}

/-- What is dropped is blank, and what is left does not start with a blank. -/
theorem dropWhile_isBlank (cs : List Char) :
    (∃ front, cs = front ++ cs.dropWhile isBlank ∧ ∀ c ∈ front, isBlank c) ∧
      ∀ c ∈ (cs.dropWhile isBlank).head?, ¬ isBlank c := by
  refine ⟨⟨cs.takeWhile isBlank, List.takeWhile_append_dropWhile.symm, ?_⟩, ?_⟩
  · intro c hc
    exact List.mem_takeWhile_imp hc
  · intro c hc
    have hnot := List.head?_dropWhile_not isBlank cs
    rw [Option.mem_def.1 hc] at hnot
    exact Bool.eq_false_iff.1 hnot

theorem dropWhile_append_of_first {front : List Char} (hf : ∀ c ∈ front, isBlank c)
    (hd : ∀ c ∈ ds.head?, ¬ isBlank c) : (front ++ ds).dropWhile isBlank = ds := by
  rw [List.dropWhile_append_of_pos hf]
  cases ds with
  | nil => rfl
  | cons d ds => exact List.dropWhile_cons_of_neg (hd d rfl)

theorem trims_trim (cs : List Char) : Trims cs (trim cs) := by
  obtain ⟨⟨front, hfront, hf⟩, hfirst⟩ := dropWhile_isBlank cs
  obtain ⟨⟨back, hback, hb⟩, hlast⟩ := dropWhile_isBlank (cs.dropWhile isBlank).reverse
  have hrest : cs.dropWhile isBlank = trim cs ++ back.reverse := by
    rw [← List.reverse_reverse (cs.dropWhile isBlank), hback, List.reverse_append]
    rfl
  constructor
  · refine ⟨front, back.reverse, ?_, hf, fun c hc => hb c (List.mem_reverse.1 hc)⟩
    rw [List.append_assoc, ← hrest]
    exact hfront
  · intro c hc
    refine hfirst c ?_
    rw [hrest, List.head?_append, Option.mem_def.1 hc]
    rfl
  · intro c hc
    rw [trim, List.getLast?_reverse] at hc
    exact hlast c hc

/-- **Trimming takes away white space at the ends**, and all of it. -/
theorem trim_eq_iff : trim cs = ds ↔ Trims cs ds := by
  refine ⟨fun h => h ▸ trims_trim cs, ?_⟩
  rintro ⟨⟨front, back, hcs, hf, hb⟩, hfirst, hlast⟩
  have hback : ∀ c ∈ back.reverse, isBlank c := fun c hc => hb c (List.mem_reverse.1 hc)
  have hends : ∀ c ∈ ds.reverse.head?, ¬ isBlank c := by
    rw [List.head?_reverse]
    exact hlast
  -- a text of white space alone goes with the front
  rcases List.eq_nil_or_concat ds with hnil | hsome
  · have hall : ∀ c ∈ cs, isBlank c := by
      rw [hcs, hnil, List.append_nil]
      intro c hc
      exact (List.mem_append.1 hc).elim (hf c) (hb c)
    have hdrop : cs.dropWhile isBlank = [] := List.dropWhile_eq_nil_iff.2 hall
    rw [trim, hdrop, hnil]
    rfl
  · have hfirst' : ∀ c ∈ (ds ++ back).head?, ¬ isBlank c := by
      obtain ⟨d, ds', hds⟩ : ∃ d ds', ds = d :: ds' := by
        obtain ⟨init, c, hc⟩ := hsome
        exact List.exists_cons_of_ne_nil (by simp [hc])
      rw [hds] at hfirst ⊢
      exact hfirst
    rw [trim, hcs, List.append_assoc, dropWhile_append_of_first hf hfirst', List.reverse_append,
      dropWhile_append_of_first hback hends, List.reverse_reverse]

/-! ## Parts -/

theorem splitAt_eq_splitOn (separator : Char) (cs : List Char) :
    splitAt separator cs = cs.splitOn separator := by
  induction cs with
  | nil => rfl
  | cons c cs ih =>
    have hne : cs.splitOn separator ≠ [] := List.splitOnP_ne_nil _ cs
    obtain ⟨part, parts, hparts⟩ := List.exists_cons_of_ne_nil hne
    rw [splitAt, ih, hparts, List.splitOn, List.splitOnP_cons_eq_if_modifyHead]
    have hrest : List.splitOnP (fun x => x == separator) cs = part :: parts := hparts
    rw [hrest]
    simp

/-! ## Numbers -/

/-- A character is a digit of either case. -/
def IsDigit (base : ℕ) (c : Char) (d : ℕ) : Prop := d < base ∧ d < 16 ∧ c.toLower = hexDigit d

/-- **A text spells a number**: with digits, of which there is at least one and any number of zeros
in front, and with a plus sign or without. -/
def Spells (base : ℕ) (cs : List Char) (n : ℕ) : Prop :=
  ∃ body digits, (cs = body ∨ cs = '+' :: body) ∧ body ≠ [] ∧
    List.Forall₂ (IsDigit base) body digits ∧ n = Radix.value base digits

variable {base limit n d : ℕ} {c : Char} {digits : List ℕ}

theorem digitValue?_eq_some_iff : digitValue? base c = some d ↔ IsDigit base c d := by
  unfold digitValue? IsDigit
  rw [Option.filter_eq_some_iff, hexValue?_eq_some_iff, decide_eq_true_iff]
  tauto

theorem digits?_eq_mapM (h : cs ≠ []) : digits? base cs = cs.mapM (digitValue? base) := by
  induction cs with
  | nil => exact absurd rfl h
  | cons c cs ih =>
    cases cs with
    | nil =>
      rw [digits?, List.mapM_cons]
      cases digitValue? base c <;> rfl
    | cons c' cs =>
      have hne := List.cons_ne_nil c' cs
      rw [digits?, List.mapM_cons, ih hne]
      exact hne

/-- Digits are read one by one. -/
theorem digits?_eq_some_iff :
    digits? base cs = some digits ↔ cs ≠ [] ∧ List.Forall₂ (IsDigit base) cs digits := by
  have hdigits : List.Forall₂ (fun c d => digitValue? base c = some d) cs digits ↔
      List.Forall₂ (IsDigit base) cs digits := by simp only [digitValue?_eq_some_iff]
  rw [← hdigits, ← mapM_eq_some_iff]
  by_cases h : cs = []
  · rw [h]
    simp [digits?]
  · rw [digits?_eq_mapM h]
    exact (and_iff_right h).symm

theorem not_isDigit (h : hexValue? c = none) : ¬ IsDigit base c d := by
  rintro ⟨-, h16, hlow⟩
  have hvalue := hexValue?_eq_some_iff.2 ⟨h16, hlow⟩
  rw [h] at hvalue
  cases hvalue

/-- No separator stands in a number, unless it is a digit or the sign. -/
theorem Spells.not_mem (h : Spells base cs n) (hc : hexValue? c = none) (hplus : c ≠ '+') :
    c ∉ cs := by
  obtain ⟨body, digits, hcs, -, hdigits, -⟩ := h
  have hbody : c ∉ body := by
    clear hcs
    induction hdigits with
    | nil => exact List.not_mem_nil
    | cons hd _ ih =>
      rw [List.mem_cons]
      rintro (rfl | hmem)
      · exact not_isDigit hc hd
      · exact ih hmem
  rcases hcs with hcs | hcs
  · rwa [hcs]
  · rw [hcs, List.mem_cons]
    exact not_or_intro hplus hbody

/-- **A number is read from the texts that spell it**, if it is below the limit. -/
theorem number?_eq_some_iff : number? base limit cs = some n ↔ Spells base cs n ∧ n < limit := by
  have hsigned : Spells base cs n ↔
      ∃ digits, digits? base (unsigned cs) = some digits ∧ Radix.value base digits = n := by
    simp only [digits?_eq_some_iff]
    constructor
    · rintro ⟨body, digits, hcs, hne, hdigits, hn⟩
      have hbody : unsigned cs = body := by
        rcases hcs with hcs | hcs
        · rw [hcs]
          cases hdigits with
          | nil => rfl
          | cons hd _ =>
            -- no sign is a digit
            unfold unsigned
            split
            · rename_i hplus
              cases hplus
              exact absurd hd (not_isDigit rfl)
            · rfl
        · rw [hcs, unsigned]
      rw [hbody]
      exact ⟨digits, ⟨hne, hdigits⟩, hn.symm⟩
    · rintro ⟨digits, ⟨hne, hdigits⟩, hn⟩
      refine ⟨unsigned cs, digits, ?_, hne, hdigits, hn.symm⟩
      unfold unsigned
      split
      · exact Or.inr rfl
      · exact Or.inl rfl
  rw [hsigned]
  unfold number?
  rw [Option.filter_eq_some_iff, Option.map_eq_some_iff, decide_eq_true_iff]

end UuidForge.Text
