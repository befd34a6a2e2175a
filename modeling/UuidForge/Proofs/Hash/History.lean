import Mathlib.Data.Nat.Notation
import UuidForge.Hash.Hasher

/-!
# Histories of a hasher pool

A history is a row of digests and disposals. A hasher is idle only after it was reset, the hasher of
a short hash function never comes back, and a full pool drops what it is given: so nothing of a
history shows in a later digest but whether the pool was disposed of.

* `HasherPool.Serves`: what calls keep true of a pool.
* `HasherPool.serves_call`: **after every call, idle hashers have forgotten what they hashed.**
* `HasherPool.digest_of_serves`: the answer of such a pool.
* `HasherPool.digest_after`: **the answer after any history.**
-/

namespace UuidForge.HasherPool

/-- A call to a pool. -/
inductive Call
  | digest (parts : List Octets)
  | dispose
  deriving DecidableEq

/-- The pool after a call. -/
def call (p : HasherPool) : Call → HasherPool
  | .digest parts => (p.digest parts).2
  | .dispose => p.dispose

/-- **The pool after a history.** -/
def after (p : HasherPool) (cs : List Call) : HasherPool := cs.foldl call p

/-- A new pool for a hash function, with room for a number of idle hashers. -/
def fresh (f : HashFunction) (capacity : ℕ) : HasherPool := { function := f, capacity }

/-- What a pool answers that was disposed of, or was not. -/
def expected (f : HashFunction) (isDisposed : Bool) (parts : List Octets) : Except Error Octets :=
  if isDisposed then .error .disposed
  else if f.size < 16 then .error (.invalidOperation .shortDigest)
  else .ok (head f parts.flatten)

/-- A pool for a hash function whose idle hashers are ready, disposed of or not. -/
structure Serves (p : HasherPool) (f : HashFunction) (isDisposed : Bool) : Prop where
  ready : p.Ready
  function : p.function = f
  disposed : p.disposed = isDisposed

variable {p : HasherPool} {f : HashFunction} {d : Bool} {h : Hasher} {parts : List Octets}

theorem serves_fresh (f : HashFunction) (capacity : ℕ) : (fresh f capacity).Serves f false := by
  refine ⟨?_, rfl, rfl⟩
  intro h hh
  cases hh

theorem serves_checkout (hp : p.Serves f d) :
    p.checkout.1 = { function := f } ∧ p.checkout.2.Serves f d := by
  obtain ⟨hready, rfl, rfl⟩ := hp
  obtain ⟨hout, hrest, hfun⟩ := ready_checkout hready
  refine ⟨hout, hrest, hfun, ?_⟩
  unfold checkout
  split
  · rfl
  · rfl

theorem serves_checkin (hp : p.Serves f d) (hh : h = { function := f }) :
    (p.checkin h).Serves f d := by
  obtain ⟨hready, rfl, rfl⟩ := hp
  unfold checkin
  split
  · exact ⟨hready, rfl, rfl⟩
  · refine ⟨?_, rfl, rfl⟩
    intro x hx
    rcases List.mem_append.1 hx with hx | hx
    · exact hready x hx
    · rw [List.mem_singleton.1 hx]
      exact hh

/-- A hasher that has given a digest is ready for the next message. -/
theorem reset_foldl_update (hh : h = { function := f }) :
    (parts.foldl Hasher.update h).reset = { function := f } := by
  obtain ⟨-, hf⟩ := foldl_update_fed parts h
  rw [Hasher.reset, hf, hh]

/-- **A digest leaves only such hashers idle as have forgotten their message.** The hasher of a
short hash function is given up. -/
theorem serves_digest (hp : p.Serves f d) : (p.digest parts).2.Serves f d := by
  obtain ⟨hout, hrest⟩ := serves_checkout hp
  unfold digest
  split
  · exact hp
  · dsimp only
    split
    · exact hrest
    · exact serves_checkin hrest (reset_foldl_update hout)

theorem serves_dispose (hp : p.Serves f d) : p.dispose.Serves f true := by
  refine ⟨?_, hp.function, rfl⟩
  intro h hh
  cases hh

/-- **After every call, idle hashers have forgotten what they hashed.** -/
theorem serves_call (c : Call) (hp : p.Serves f d) :
    (p.call c).Serves f (d || decide (c = .dispose)) := by
  cases c with
  | digest parts =>
    rw [decide_eq_false (by simp), Bool.or_false]
    exact serves_digest hp
  | dispose =>
    rw [decide_eq_true rfl, Bool.or_true]
    exact serves_dispose hp

theorem serves_after (cs : List Call) (hp : p.Serves f d) :
    (p.after cs).Serves f (d || decide (.dispose ∈ cs)) := by
  induction cs generalizing p d with
  | nil =>
    rw [decide_eq_false List.not_mem_nil, Bool.or_false]
    exact hp
  | cons c cs ih =>
    have hd : (d || decide (.dispose ∈ c :: cs)) =
        ((d || decide (c = .dispose)) || decide (.dispose ∈ cs)) := by
      rw [Bool.or_assoc, ← Bool.decide_or]
      congr 2
      rw [List.mem_cons, eq_comm (a := Call.dispose)]
    rw [hd]
    exact ih (serves_call c hp)

/-- **The answer of a pool whose idle hashers are ready.** -/
theorem digest_of_serves (hp : p.Serves f d) (parts : List Octets) :
    (p.digest parts).1 = expected f d parts := by
  obtain ⟨hout, -⟩ := serves_checkout hp
  obtain ⟨hready, rfl, hd⟩ := hp
  unfold expected
  cases d with
  | true =>
    rw [digest, if_pos hd]
    rfl
  | false =>
    by_cases hs : p.function.size < 16
    · have hsize : p.checkout.1.size < 16 := by
        rw [hout]
        exact hs
      rw [if_pos hs, digest, hd]
      simp only [Bool.false_eq_true, if_false, hsize, if_true]
    · rw [if_neg hs]
      exact digest_of_ready hready hd (by omega) parts

/-- **The answer after any history.** Whatever a pool has hashed or refused before and however the
message is cut into parts, the answer is the head of the hash of the joined parts, or the refusal of
a short hash function; once the pool was disposed of, it is that refusal. -/
theorem digest_after (f : HashFunction) (capacity : ℕ) (cs : List Call) (parts : List Octets) :
    (((fresh f capacity).after cs).digest parts).1 =
      expected f (decide (.dispose ∈ cs)) parts := by
  have hserves := serves_after cs (serves_fresh f capacity)
  rw [Bool.false_or] at hserves
  exact digest_of_serves hserves parts

end UuidForge.HasherPool
