import UuidForge.Pool

/-!
# A call to a pool

A call takes a member out, runs an errand, has the member answer and takes it back.

* `Pool.errand`: what happens while a member is out.
* `Pool.serve_cases`: **a call is refused when no member can be taken out**, and else goes through
  all four steps.
* `Pool.checkOut_of_disposed`, `Pool.checkOut_of_idle`, `Pool.checkOut_of_no_idle`: where the member
  comes from.
* `PoolMember.answer_spec`: a member answers as its generator does on some host.
-/

namespace UuidForge

/-- **A member answers as its generator does**, on the host with the member's own state in place if
it has one. -/
theorem PoolMember.answer_spec (m : PoolMember) (q : Request) (h : Host) :
    ∃ h', (m.answer q h).1.1 = (m.generator.answer q h').1.1 ∧
      (m.answer q h).1.2.generator = (m.generator.answer q h').1.2 := by
  unfold answer
  cases m.state with
  | none => exact ⟨h, rfl, rfl⟩
  | some own => exact ⟨{ h with state := own }, rfl, rfl⟩

namespace Pool

variable {p : Pool} {waiting : List Errand} {q : Request} {h : Host}

/-- **What happens while a member is out**: the first errand that is waiting is run. -/
def errand : List Errand → Pool → OnHost (List Errand × Pool)
  | [], p => pure ([], p)
  | .fresh :: rest, p => do
    let (r, rest, p) ← serve rest .fresh p
    return (rest, p.note (.nested r))
  | .dispose :: rest, p => pure (rest, p.dispose.note .closed)
  | .count :: rest, p => pure (rest, p.note (.counted p.idleCount))

/-- The steps of a call. -/
theorem serve_eq (waiting : List Errand) (q : Request) (p : Pool) :
    serve waiting q p = do
      let (member, p) ← p.checkOut
      match member with
      | .error e => return (.error e, waiting, p)
      | .ok m =>
        let (waiting, p) ← p.errand waiting
        let (r, m) ← m.answer q
        return (r, waiting, p.checkIn m) := by
  funext h
  cases waiting with
  | nil =>
    unfold serve
    simp only [bind, StateT.bind]
    obtain ⟨⟨member, p⟩, h⟩ := p.checkOut h
    cases member <;> rfl
  | cons e rest =>
    cases e with
    | fresh | dispose | count =>
      unfold serve
      simp only [bind, StateT.bind]
      obtain ⟨⟨member, p⟩, h⟩ := p.checkOut h
      cases member <;> rfl

/-- **A call goes through all steps** as soon as a member is out. -/
theorem serve_cases (p : Pool) (waiting : List Errand) (q : Request) (h : Host) :
    (∃ e p' h', p.checkOut h = ((.error e, p'), h') ∧
      p.serve waiting q h = ((.error e, waiting, p'), h')) ∨
    ∃ m p' h' rest p'' h'', p.checkOut h = ((.ok m, p'), h') ∧
      p'.errand waiting h' = ((rest, p''), h'') ∧
      p.serve waiting q h =
        (((m.answer q h'').1.1, rest, p''.checkIn (m.answer q h'').1.2), (m.answer q h'').2) := by
  rw [serve_eq]
  simp only [bind, StateT.bind]
  obtain ⟨⟨member, p'⟩, h'⟩ := p.checkOut h
  cases member with
  | error e => exact Or.inl ⟨e, p', h', rfl, rfl⟩
  | ok m =>
    exact Or.inr ⟨m, p', h', _, _, _, rfl, rfl, rfl⟩

theorem checkOut_of_disposed (hd : p.isDisposed = true) :
    p.checkOut h = ((.error .disposed, p), h) := by
  unfold checkOut
  rw [if_pos hd]
  rfl

theorem checkOut_of_idle (hd : p.isDisposed = false) {m : PoolMember} {idle : List PoolMember}
    (hi : p.idle = m :: idle) : p.checkOut h = ((.ok m, { p with idle }), h) := by
  unfold checkOut
  rw [hd, hi]
  rfl

/-- Without an idle member a new one is made, and disposed of if it is of another kind. -/
theorem checkOut_of_no_idle (hd : p.isDisposed = false) (hi : p.idle = []) :
    p.checkOut h =
      (if p.accepts (p.make h).1.1 then (.ok (p.make h).1.1, (p.make h).1.2)
        else (.error (.invalidOperation .factoryChanged),
          (p.make h).1.2.note (.disposed (p.make h).1.1.index)), (p.make h).2) := by
  unfold checkOut
  rw [hd, hi]
  show (if (p.make h).1.2.accepts (p.make h).1.1 then pure (.ok _, _) else pure (.error _, _) :
    OnHost (Except Error PoolMember × Pool)) (p.make h).2 = _
  have hsame : (p.make h).1.2.accepts (p.make h).1.1 = p.accepts (p.make h).1.1 := rfl
  rw [hsame]
  split <;> rfl

/-- A host at 1970 without a hardware address, whose entropy is all zeros. -/
def blankHost : Host := .start (.ofScript #[]) 0 none 0

end Pool

end UuidForge
