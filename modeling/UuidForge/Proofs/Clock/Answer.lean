import UuidForge.Proofs.Clock.Frame
import UuidForge.Proofs.TimeBased.Stamp

/-!
# Answers and stamps

An answer of a generator takes at most one stamp: a new UUID of version 1 or 6 always takes one, a
UUID of version 2 if its local id is known. All other answers leave every clock alone.

* `Generator.answer_of_stamp?`: an answer that takes a stamp goes as the stamp does.
* `Generator.answer_of_no_stamp`: any other answer leaves all clocks alone.
* `Generator.uuid_of_answer`: the UUID of a generator with a clock is that of its stamp.
-/

namespace UuidForge

namespace DceSecurity

variable (g : DceSecurity) {d : LocalDomain} {given : Option (BitVec 32)} {h : Host}

/-- The stamp that a version 2 UUID is made of, if the local id is known. -/
def stamp? (d : LocalDomain) (given : Option (BitVec 32)) (h : Host) : Option TimeStamp :=
  match g.ids.lookup h d given with
  | .ok _ => some (g.base.stamp h).1.1
  | .error _ => none

theorem next_of_ok {localId : BitVec 32} (hl : g.ids.lookup h d given = .ok localId) :
    g.next d given h = (((g.base.stamp h).1.1.dceUuid d localId,
      { g with base := (g.base.stamp h).1.2 }), (g.base.stamp h).2) := by
  unfold next
  simp only [bind, StateT.bind, get, getThe, MonadStateOf.get, StateT.get, pure, hl]
  rfl

/-- **Without a local id nothing moves.** -/
theorem next_of_error {e : Error} (hl : g.ids.lookup h d given = .error e) :
    g.next d given h = ((.error e, g), h) := by
  unfold next
  simp only [bind, StateT.bind, get, getThe, MonadStateOf.get, StateT.get, pure, hl]
  rfl

theorem stamp?_cases (d : LocalDomain) (given : Option (BitVec 32)) (h : Host) :
    (∃ localId, g.ids.lookup h d given = .ok localId ∧
        g.stamp? d given h = some (g.base.stamp h).1.1) ∨
      ∃ e, g.ids.lookup h d given = .error e ∧ g.stamp? d given h = none := by
  unfold stamp?
  cases g.ids.lookup h d given with
  | ok localId => exact Or.inl ⟨localId, rfl, rfl⟩
  | error e => exact Or.inr ⟨e, rfl, rfl⟩

end DceSecurity

namespace Generator

/-- The time-based generator in a generator of version 1, 2 or 6. -/
def base? : Generator → Option TimeBased
  | timeBased g => some g
  | dceSecurity g => some g.base
  | _ => none

/-- The stamp that the answer to a request takes, if it takes one. -/
def stamp? (g : Generator) (r : Request) (h : Host) : Option TimeStamp :=
  match g, r with
  | timeBased g, .fresh => some (g.stamp h).1.1
  | dceSecurity g, .fresh => g.stamp? .person none h
  | dceSecurity g, .dce d n => g.stamp? d n h
  | _, _ => none

variable {g : Generator} {r : Request} {h : Host} {s : TimeStamp} {u : Uuid}

/-- **An answer that takes a stamp** changes generator and host as the stamp does. -/
theorem answer_of_stamp? (hs : g.stamp? r h = some s) :
    ∃ b, g.base? = some b ∧ s = (b.stamp h).1.1 ∧
      (g.answer r h).1.2.base? = some (b.stamp h).1.2 ∧ (g.answer r h).2 = (b.stamp h).2 := by
  have hd : ∀ (g : DceSecurity) d n, g.stamp? d n h = some s →
      s = (g.base.stamp h).1.1 ∧ (g.next d n h).1.2.base = (g.base.stamp h).1.2 ∧
        (g.next d n h).2 = (g.base.stamp h).2 := by
    intro g d n hs
    rcases g.stamp?_cases d n h with ⟨localId, hl, he⟩ | ⟨e, -, he⟩
    · rw [hs] at he
      cases he
      rw [g.next_of_ok hl]
      exact ⟨rfl, rfl, rfl⟩
    · rw [hs] at he
      cases he
  cases g with
  | timeBased g =>
    cases r with
    | fresh => cases hs; exact ⟨g, rfl, rfl, rfl, rfl⟩
    | named | dce => cases hs
  | dceSecurity g =>
    cases r with
    | fresh =>
      obtain ⟨h1, h2, h3⟩ := hd g _ _ hs
      exact ⟨g.base, rfl, h1, congrArg some h2, h3⟩
    | dce d n =>
      obtain ⟨h1, h2, h3⟩ := hd g _ _ hs
      exact ⟨g.base, rfl, h1, congrArg some h2, h3⟩
    | named => cases hs
  | empty | max | random | unixTime | nameBased | custom => cases hs

/-- **An answer without a stamp** leaves the generator's clock and the clock domains alone. -/
theorem answer_of_no_stamp (hs : g.stamp? r h = none) :
    (g.answer r h).1.2.base? = g.base? ∧
      ∀ k, (g.answer r h).2.state.domain k = h.state.domain k := by
  have hd : ∀ (g : DceSecurity) d n, g.stamp? d n h = none →
      (g.next d n h).1.2.base = g.base ∧ (g.next d n h).2 = h := by
    intro g d n hs
    rcases g.stamp?_cases d n h with ⟨localId, -, he⟩ | ⟨e, hl, -⟩
    · rw [hs] at he
      cases he
    · rw [g.next_of_error hl]
      exact ⟨rfl, rfl⟩
  cases g with
  | timeBased g =>
    cases r with
    | fresh => cases hs
    | named | dce => exact ⟨rfl, fun _ => rfl⟩
  | dceSecurity g =>
    cases r with
    | fresh =>
      obtain ⟨h1, h2⟩ := hd g _ _ hs
      exact ⟨congrArg some h1, fun k => congrArg (·.state.domain k) h2⟩
    | dce d n =>
      obtain ⟨h1, h2⟩ := hd g _ _ hs
      exact ⟨congrArg some h1, fun k => congrArg (·.state.domain k) h2⟩
    | named => exact ⟨rfl, fun _ => rfl⟩
  | empty | max | nameBased => cases r <;> exact ⟨rfl, fun _ => rfl⟩
  | random =>
    cases r with
    | fresh => exact ⟨rfl, congrFun (Keeps.drawUuid lasting_clocks h)⟩
    | named | dce => exact ⟨rfl, fun _ => rfl⟩
  | unixTime g =>
    cases r with
    | fresh => exact ⟨rfl, congrFun (Keeps.nextUnixTime lasting_clocks (fun _ _ => rfl) g h)⟩
    | named | dce => exact ⟨rfl, fun _ => rfl⟩
  | custom g =>
    cases r with
    | fresh => exact ⟨rfl, congrFun (Keeps.nextCustom lasting_clocks g h)⟩
    | named | dce => exact ⟨rfl, fun _ => rfl⟩

/-- **The UUID of a generator with a clock** is that of the stamp taken, or one of version 2. -/
theorem uuid_of_answer (hb : g.base?.isSome) (hu : (g.answer r h).1.1 = .ok u) :
    ∃ s, g.stamp? r h = some s ∧ (u.version = .v2 ∨ s.uuid u.version = .ok u) := by
  have hd : ∀ (g : DceSecurity) d n, (g.next d n h).1.1 = .ok u →
      ∃ s, g.stamp? d n h = some s ∧ u.version = .v2 := by
    intro g d n hu
    rcases g.stamp?_cases d n h with ⟨localId, hl, he⟩ | ⟨e, hl, -⟩
    · rw [g.next_of_ok hl] at hu
      exact ⟨_, he, TimeStamp.version_of_dceUuid hu⟩
    · rw [g.next_of_error hl] at hu
      cases hu
  cases g with
  | timeBased g =>
    cases r with
    | fresh =>
      have hg : (g.stamp h).1.1.uuid (g.stamp h).1.2.version = .ok u := hu
      refine ⟨_, rfl, Or.inr ?_⟩
      rw [TimeStamp.version_of_uuid hg]
      exact hg
    | named | dce => cases hu
  | dceSecurity g =>
    cases r with
    | fresh =>
      obtain ⟨s, hs, hv⟩ := hd g _ _ hu
      exact ⟨s, hs, Or.inl hv⟩
    | dce d n =>
      obtain ⟨s, hs, hv⟩ := hd g _ _ hu
      exact ⟨s, hs, Or.inl hv⟩
    | named => cases hu
  | empty | max | random | unixTime | nameBased | custom => cases hb

end Generator

end UuidForge
