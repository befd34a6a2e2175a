import UuidForge.State.Generator

/-!
# What the operations of a generator state do to its clock domains

Only a refresh, a load and a reset move a clock domain. Whether a save succeeds, fails or is not
due makes no difference to the sequence that a refresh hands out.

* `GeneratorState.refresh_fst`, `GeneratorState.domain_refresh_self`: a refresh is one step of
  `ClockState.refresh` on its own domain.
* `GeneratorState.domain_refresh_of_ne`: the other domain stays as it was.
-/

namespace UuidForge.GeneratorState

variable (s : GeneratorState) {k l : ClockKind}

@[simp] theorem domain_setDomain_self (c : ClockState) : (s.setDomain k c).domain k = c := by
  cases k <;> rfl

theorem domain_setDomain_of_ne (c : ClockState) (h : l ≠ k) :
    (s.setDomain k c).domain l = s.domain l := by
  cases k <;> cases l <;> first | rfl | exact absurd rfl h

@[simp] theorem domain_report (f : StorageFailure) : (s.report f).domain k = s.domain k := by
  cases k <;> rfl

@[simp] theorem domain_listen (l : Listener) : (s.listen l).domain k = s.domain k := by
  cases k <;> rfl

/-- **A save leaves the clock domains alone**, also when it fails. -/
@[simp] theorem domain_save (now : Span) (files : FileTree) :
    (s.save now files).2.1.domain k = s.domain k := by
  unfold save
  split
  · rfl
  · simp only
    split
    · cases k <;> rfl
    · rw [domain_report]
      cases k <;> rfl

@[simp] theorem domain_nonVolatileNode (e : Entropy) :
    (s.nonVolatileNode e).2.1.domain k = s.domain k := by
  unfold nonVolatileNode
  split
  · rfl
  · cases k <;> rfl

variable (t : Ticks) (node : Option NodeId) (now : Span) (files : FileTree)

theorem refresh_cases :
    (s.refresh k t node now files).2 = ((s.advance k t node).2, files) ∨
      (s.refresh k t node now files).2 = ((s.advance k t node).2.save now files).2 := by
  unfold refresh
  simp only
  split
  · exact Or.inr rfl
  · exact Or.inl rfl

/-- **A refresh hands out the sequence of its domain**, whatever becomes of the save. -/
theorem refresh_fst :
    (s.refresh k t node now files).1 = ((s.domain k).refresh t node).1.sequence := by
  unfold refresh
  simp only
  split <;> rfl

theorem domain_refresh (l : ClockKind) :
    (s.refresh k t node now files).2.1.domain l = (s.advance k t node).2.domain l := by
  rcases s.refresh_cases t node now files with h | h
  · rw [h]
  · rw [h, domain_save]

@[simp] theorem domain_refresh_self :
    (s.refresh k t node now files).2.1.domain k = ((s.domain k).refresh t node).2 := by
  rw [domain_refresh]
  exact domain_setDomain_self s _

theorem domain_refresh_of_ne (h : l ≠ k) :
    (s.refresh k t node now files).2.1.domain l = s.domain l := by
  rw [domain_refresh]
  exact domain_setDomain_of_ne s _ h

end UuidForge.GeneratorState
