import Mathlib.Data.List.Nodup
import Mathlib.Data.List.Sort
import UuidForge.Files.Lemmas
import UuidForge.Proofs.Text.ByteOrder

/-!
# Names and files in a tree

A tree keeps its entries in some order, and every place has one entry. The order can neither be
seen in the names of a directory nor in the files.

* `FileTree.mem_names`, `FileTree.pairwise_names`: **the names in a directory**, in the order of
  their octets.
* `FileTree.content?_eq_some_iff`: the file at a place is the one in the entries.
* `FileTree.text?_eq_some_iff`: it is read as text exactly if it holds UTF-8.
-/

namespace UuidForge.FileTree

/-- Every place has one entry. -/
def Distinct (t : FileTree) : Prop := (t.entries.map Prod.fst).Nodup

instance (t : FileTree) : Decidable t.Distinct := inferInstanceAs (Decidable (List.Nodup _))

/-- Something with a name lies in a directory. -/
def HasName (t : FileTree) (place : NamePath) (name : String) : Prop :=
  ∃ node, (place ++ [name], node) ∈ t.entries

/-- Two trees have the same entries, in any order, but for what lies at some names of a directory
and below them. -/
def AgreesBeside (t u : FileTree) (place : NamePath) (names : String → Prop) : Prop :=
  ∀ e, (∀ name, names name → ¬ place ++ [name] <+: e.1) → (e ∈ t.entries ↔ e ∈ u.entries)

variable {t : FileTree} {place : NamePath} {name : String}

/-! ## Names -/

/-- The name of a place in a directory. -/
def nameIn (directory place : NamePath) : Option String :=
  match place.getLast? with
  | some name => if place.dropLast = directory then some name else none
  | none => none

theorem nameIn_eq_some_iff {directory : NamePath} :
    nameIn directory place = some name ↔ place = directory ++ [name] := by
  rcases List.eq_nil_or_concat place with rfl | ⟨init, last, rfl⟩
  · simp [nameIn]
  · simp [nameIn]

theorem names_eq (t : FileTree) (place : NamePath) : t.names place =
    ((t.entries.map Prod.fst).filterMap (nameIn place)).mergeSort fun a b => decide (a ≤ b) := by
  rw [List.filterMap_map]
  rfl

theorem mem_names : name ∈ t.names place ↔ t.HasName place name := by
  rw [names_eq, List.mem_mergeSort, List.mem_filterMap]
  simp only [nameIn_eq_some_iff]
  constructor
  · rintro ⟨q, hq, rfl⟩
    obtain ⟨⟨q, node⟩, hmem, rfl⟩ := List.mem_map.1 hq
    exact ⟨node, hmem⟩
  · rintro ⟨node, hmem⟩
    exact ⟨_, List.mem_map.2 ⟨_, hmem, rfl⟩, rfl⟩

theorem nodup_names (ht : t.Distinct) (place : NamePath) : (t.names place).Nodup := by
  rw [names_eq]
  refine (List.mergeSort_perm _ _).nodup_iff.2 (List.Nodup.filterMap ?_ ht)
  intro q q' name hq hq'
  rw [nameIn_eq_some_iff.1 hq, nameIn_eq_some_iff.1 hq']

/-- **Names are in the order of their octets.** -/
theorem pairwise_names (ht : t.Distinct) (place : NamePath) :
    (t.names place).Pairwise fun a b => Octets.ofText a < Octets.ofText b := by
  have hsorted := List.pairwise_mergeSort' (· ≤ ·)
    ((t.entries.map Prod.fst).filterMap (nameIn place))
  rw [← names_eq] at hsorted
  refine (hsorted.and (nodup_names ht place)).imp ?_
  rintro a b ⟨hle, hne⟩
  rw [Octets.ofText_lt_ofText_iff]
  by_contra hlt
  exact hne (String.le_antisymm hle (String.not_lt.1 hlt))

/-! ## Files -/

theorem lookup_eq_some_iff {entries : List (NamePath × FileNode)}
    (h : (entries.map Prod.fst).Nodup) {node : FileNode} :
    entries.lookup place = some node ↔ (place, node) ∈ entries := by
  induction entries with
  | nil => simp
  | cons e entries ih =>
    obtain ⟨q, other⟩ := e
    rw [List.map_cons, List.nodup_cons] at h
    rw [List.lookup_cons, List.mem_cons, Prod.mk.injEq]
    by_cases hq : place = q
    · have hnone : (place, node) ∉ entries := by
        intro hmem
        exact h.1 (List.mem_map.2 ⟨_, hmem, hq⟩)
      rw [beq_iff_eq.2 hq]
      constructor
      · intro hsome
        exact Or.inl ⟨hq, (Option.some.inj hsome).symm⟩
      · rintro (⟨-, hnode⟩ | hmem)
        · exact congrArg some hnode.symm
        · exact absurd hmem hnone
    · rw [beq_eq_false_iff_ne.2 hq, ih h.2]
      exact (or_iff_right fun heq => hq heq.1).symm

/-- **The file at a place is the one in the entries.** -/
theorem content?_eq_some_iff (ht : t.Distinct) (hn : name ≠ "..") {xs : Octets} :
    t.content? (place ++ [name]) = some xs ↔ (place ++ [name], .file xs) ∈ t.entries := by
  rw [← lookup_eq_some_iff ht]
  unfold content? find?
  rw [all_snoc_eq_false place hn]
  cases t.entries.lookup (place ++ [name]) with
  | none => simp
  | some node =>
    cases node with
    | file content => simp
    | directory => simp

/-- **A file is read as text exactly if it holds UTF-8.** -/
theorem text?_eq_some_iff (ht : t.Distinct) (hn : name ≠ "..") {s : String} :
    t.text? (place ++ [name]) = some s ↔
      (place ++ [name], .file (Octets.ofText s)) ∈ t.entries := by
  unfold text?
  simp only [Option.bind_eq_some_iff, content?_eq_some_iff ht hn, Octets.text?_eq_some_iff]
  exact ⟨fun ⟨_, hmem, hxs⟩ => hxs ▸ hmem, fun hmem => ⟨_, hmem, rfl⟩⟩

end UuidForge.FileTree
