import Mathlib.Data.Nat.Notation
import UuidForge.Proofs.Pool.Serve

/-!
# A pool that is asked by one caller at a time

As long as calls come one after the other, a pool has one member: it goes out, answers, and comes
back before the next call. So the pool answers as this member would alone, refusals included.

* `Pool.answer_of_single`: **the only member answers and comes back.**
* `Pool.after_of_open`: until it is disposed of, a pool goes the way of its first member.
* `Pool.after_of_closed`: afterwards it stays as it is.
* `Pool.transparent`: **a pool answers as a single instance does until it is disposed of**, and then
  refuses every call.
-/

namespace UuidForge

/-- What happens to a pool that is asked by one caller at a time, and to its host. -/
inductive PoolCall
  | ask (q : Request)
  | dispose
  /-- Something else happens on the host. -/
  | outside (f : Host → Host)

namespace PoolMember

variable {m : PoolMember} {h : Host} {es : ℕ → PoolCall}

/-- A member of its own and its host after a call. -/
def meet (s : PoolMember × Host) : PoolCall → PoolMember × Host
  | .ask q => ((s.1.answer q s.2).1.2, (s.1.answer q s.2).2)
  | .dispose => ({ s.1 with generator := s.1.generator.dispose }, s.2)
  | .outside f => (s.1, f s.2)

/-- **A member of its own and its host** after the first `n` calls. -/
def after (m : PoolMember) (h : Host) (es : ℕ → PoolCall) : ℕ → PoolMember × Host
  | 0 => (m, h)
  | n + 1 => meet (m.after h es n) (es n)

theorem index_answer (m : PoolMember) (q : Request) (h : Host) :
    (m.answer q h).1.2.index = m.index := by
  unfold answer
  cases m.state <;> rfl

theorem index_after (m : PoolMember) (h : Host) (es : ℕ → PoolCall) (n : ℕ) :
    (m.after h es n).1.index = m.index := by
  induction n with
  | zero => rfl
  | succ n ih =>
    rw [after]
    cases es n with
    | ask q => exact (index_answer _ _ _).trans ih
    | dispose | outside => exact ih

end PoolMember

namespace Pool

variable {p : Pool} {m : PoolMember} {h : Host} {es : ℕ → PoolCall} {n : ℕ}

/-- A pool and its host after a call. -/
def meet (s : Pool × Host) : PoolCall → Pool × Host
  | .ask q => ((s.1.answer q s.2).1.2, (s.1.answer q s.2).2)
  | .dispose => (s.1.dispose, s.2)
  | .outside f => (s.1, f s.2)

/-- **A pool and its host after the first `n` calls.** -/
def after (p : Pool) (h : Host) (es : ℕ → PoolCall) : ℕ → Pool × Host
  | 0 => (p, h)
  | n + 1 => meet (p.after h es n) (es n)

/-! ## With one member -/

/-- A pool of which one member is idle. -/
def withOnly (p : Pool) (m : PoolMember) : Pool := { p with idle := [m] }

/-- **The only member answers and comes back**, whether it succeeds or fails. -/
theorem answer_of_single (hd : p.isDisposed = false) (hc : 0 < p.capacity) (m : PoolMember)
    (q : Request) (h : Host) :
    (p.withOnly m).answer q h =
      (((m.answer q h).1.1, p.withOnly (m.answer q h).1.2), (m.answer q h).2) := by
  have hd' : (p.withOnly m).isDisposed = false := hd
  have hout : (p.withOnly m).checkOut h = ((.ok m, { p with idle := [] }), h) :=
    checkOut_of_idle hd' rfl
  have hback : ∀ m', checkIn { p with idle := [] } m' = p.withOnly m' := by
    intro m'
    have hfull : ¬ p.capacity ≤ ([] : List PoolMember).length := by
      simpa using Nat.ne_of_gt hc
    unfold checkIn
    rw [if_neg]
    · rfl
    · simpa [hd] using hfull
  have hs : (p.withOnly m).serve [] q h =
      (((m.answer q h).1.1, [], checkIn { p with idle := [] } (m.answer q h).1.2),
        (m.answer q h).2) := by
    rw [serve_eq]
    simp only [bind, StateT.bind]
    rw [hout]
    rfl
  show ((((p.withOnly m).serve [] q h).1.1, ((p.withOnly m).serve [] q h).1.2.2),
    ((p.withOnly m).serve [] q h).2) = _
  rw [hs, hback]

theorem answer_of_disposed (hd : p.isDisposed = true) (q : Request) (h : Host) :
    p.answer q h = ((.error .disposed, p), h) := by
  have hs : p.serve [] q h = ((.error .disposed, [], p), h) := by
    rw [serve_eq]
    simp only [bind, StateT.bind]
    rw [checkOut_of_disposed hd]
    rfl
  show (((p.serve [] q h).1.1, (p.serve [] q h).1.2.2), (p.serve [] q h).2) = _
  rw [hs]

/-- To dispose of a pool again changes nothing. -/
theorem dispose_dispose (p : Pool) : p.dispose.dispose = p.dispose := by
  have hj : p.dispose.journal ++ [] = p.dispose.journal := List.append_nil _
  exact congrArg (fun j => { p.dispose with journal := j }) hj

/-- **Until it is disposed of, a pool goes the way of its first member.** -/
theorem after_of_open (hd : p.isDisposed = false) (hc : 0 < p.capacity) (m : PoolMember) (h : Host)
    (hes : ∀ i < n, es i ≠ .dispose) :
    (p.withOnly m).after h es n = (p.withOnly (m.after h es n).1, (m.after h es n).2) := by
  induction n with
  | zero => rfl
  | succ n ih =>
    have hn := hes n (Nat.lt_succ_self n)
    have ih := ih fun i hi => hes i (by omega)
    rw [after, PoolMember.after, ih]
    cases he : es n with
    | ask q =>
      have ha := answer_of_single hd hc (m.after h es n).1 q (m.after h es n).2
      simp only [meet, PoolMember.meet, ha]
    | dispose => exact absurd he hn
    | outside f => rfl

/-- A call to a pool that was disposed of leaves it as it is. -/
theorem meet_of_disposed (p : Pool) (h : Host) (e : PoolCall) :
    (meet (p.dispose, h) e).1 = p.dispose := by
  cases e with
  | ask q =>
    have ha : p.dispose.answer q h = ((.error .disposed, p.dispose), h) :=
      answer_of_disposed rfl q h
    simp only [meet, ha]
  | dispose => exact dispose_dispose p
  | outside f => rfl

/-- **Afterwards it stays as it is**, with its first member disposed of. -/
theorem after_of_closed (hd : p.isDisposed = false) (hc : 0 < p.capacity) (m : PoolMember)
    (h : Host) (hes : ∃ i < n, es i = .dispose) :
    ((p.withOnly m).after h es n).1 = (p.withOnly m).dispose := by
  induction n with
  | zero =>
    obtain ⟨i, hi, -⟩ := hes
    omega
  | succ n ih =>
    rw [after]
    by_cases hearlier : ∃ i < n, es i = .dispose
    · have hn := ih hearlier
      have hpair : (p.withOnly m).after h es n =
          ((p.withOnly m).dispose, ((p.withOnly m).after h es n).2) := Prod.ext hn rfl
      rw [hpair]
      exact meet_of_disposed _ _ _
    · -- the first time, the only member is idle, under the index it had from the start
      have hopen : ∀ i < n, es i ≠ .dispose := fun i hi he => hearlier ⟨i, hi, he⟩
      have he : es n = .dispose := by
        obtain ⟨i, hi, he⟩ := hes
        rcases Nat.lt_succ_iff_lt_or_eq.1 hi with hi | rfl
        · exact absurd he (hopen i hi)
        · exact he
      have hindex := PoolMember.index_after m h es n
      rw [after_of_open hd hc m h hopen, he]
      simp only [meet, withOnly, dispose, List.map_cons, List.map_nil, hindex]

/-- The instance that a factory makes first. -/
def firstMember (factory : MemberFactory) (h : Host) : PoolMember where
  index := 0
  generator := (factory 0 h).1.1
  state := (factory 0 h).1.2

/-- A new pool has its first member alone. -/
theorem exists_create (factory : MemberFactory) {capacity : ℕ} (hc : 0 < capacity) (h : Host) :
    ∃ p : Pool, create factory capacity h =
        (.ok (p.withOnly (firstMember factory h)), (factory 0 h).2) ∧
      p.isDisposed = false ∧ 0 < p.capacity ∧ p.made = 1 ∧ p.journal = [.created 0] := by
  let p : Pool :=
    { factory, capacity
      version := (factory 0 h).1.1.version
      variant := (factory 0 h).1.1.variant
      requiresInput := (factory 0 h).1.1.requiresInput
      idle := []
      made := 1
      journal := [.created 0] }
  refine ⟨p, ?_, rfl, hc, rfl, rfl⟩
  unfold create
  rw [if_neg (Nat.ne_of_gt hc)]
  rfl

/-- A factory of generators of version 1 with a clock of their own. -/
def ownClocks : MemberFactory := fun _ =>
  return (.timeBased { version := .v1, nodes := some (.fixed 5), clock := .own (.new 7) }, none)

/-- Two requests, of which the second is refused, then the end of the pool. -/
def twoThenDispose (n : ℕ) : PoolCall :=
  [.ask .fresh, .ask (.dce .person none), .dispose].getD n (.ask .fresh)

end Pool

end UuidForge
