import Mathlib.Tactic.Tauto
import UuidForge.Node

/-!
# Which address is selected

* `Interface.select?_eq_some_iff`: **the first preferred address, else the first usable one.**
* `Interface.select?_eq_none_iff`: nothing is selected only if no address is usable.
-/

namespace UuidForge.Interface

/-- An interface that is up, leads to real hardware and has an address. -/
def Preferred (i : Interface) : Prop := i.isUp ∧ ¬ i.isLoopback ∧ ¬ i.isTunnel ∧ i.address ≠ 0

/-- An interface with an address that is no loopback. -/
def Usable (i : Interface) : Prop := ¬ i.isLoopback ∧ i.address ≠ 0

/-- The first item of a list with a property. -/
def FirstWith (P : Interface → Prop) (is : List Interface) (i : Interface) : Prop :=
  ∃ front back, is = front ++ i :: back ∧ P i ∧ ∀ j ∈ front, ¬ P j

variable {is : List Interface} {i : Interface} {n : NodeId}

theorem isUsable_iff : i.isUsable ↔ i.Usable := by
  unfold isUsable Usable
  simp [and_comm]

theorem isPreferred_iff : i.isPreferred ↔ i.Preferred := by
  unfold isPreferred isUsable Preferred
  simp
  tauto

theorem find?_eq_some_iff {P : Interface → Prop} {f : Interface → Bool} (hf : ∀ i, f i ↔ P i) :
    is.find? f = some i ↔ FirstWith P is i := by
  rw [List.find?_eq_some_iff_append]
  unfold FirstWith
  simp only [Bool.not_eq_true', ← Bool.not_eq_true, hf]
  constructor
  · rintro ⟨hi, front, back, his, hfront⟩
    exact ⟨front, back, his, hi, hfront⟩
  · rintro ⟨front, back, his, hi, hfront⟩
    exact ⟨hi, front, back, his, hfront⟩

/-- **Which address is selected**: the first preferred one, else the first usable one. -/
theorem select?_eq_some_iff : select? is = some n ↔
    (∃ i, FirstWith Preferred is i ∧ i.address = n) ∨
      (∀ i ∈ is, ¬ i.Preferred) ∧ ∃ i, FirstWith Usable is i ∧ i.address = n := by
  have hnone : is.find? isPreferred = none ↔ ∀ i ∈ is, ¬ i.Preferred := by
    simp only [List.find?_eq_none, isPreferred_iff]
  unfold select?
  simp only [Option.map_eq_some_iff, Option.or_eq_some_iff, hnone,
    find?_eq_some_iff fun _ => isPreferred_iff, find?_eq_some_iff fun _ => isUsable_iff]
  constructor
  · rintro ⟨i, hi | ⟨hno, hi⟩, hn⟩
    · exact Or.inl ⟨i, hi, hn⟩
    · exact Or.inr ⟨hno, i, hi, hn⟩
  · rintro (⟨i, hi, hn⟩ | ⟨hno, i, hi, hn⟩)
    · exact ⟨i, Or.inl hi, hn⟩
    · exact ⟨i, Or.inr ⟨hno, hi⟩, hn⟩

theorem select?_eq_none_iff : select? is = none ↔ ∀ i ∈ is, ¬ i.Usable := by
  have husable : ∀ {i : Interface}, i.Preferred → i.Usable := by
    rintro i ⟨-, hloopback, -, haddress⟩
    exact ⟨hloopback, haddress⟩
  unfold select?
  rw [Option.map_eq_none_iff, Option.or_eq_none_iff, List.find?_eq_none, List.find?_eq_none]
  simp only [isPreferred_iff, isUsable_iff]
  exact ⟨And.right, fun h => ⟨fun i hi hp => h i hi (husable hp), h⟩⟩

end UuidForge.Interface
