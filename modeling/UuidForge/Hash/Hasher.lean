import UuidForge.Error
import UuidForge.Hash.Block

/-!
# Hashers and hasher pools

A hasher takes its message in parts. A pool keeps idle hashers for reuse; it may be disposed of,
and then refuses every later call.

* `HasherPool.digest_of_ready`: before disposal a digest is the head of the hash of the joined
  parts, whatever was hashed before.
-/

namespace UuidForge

/-- The toy hash function that adds octet `i` of the message to octet `i` modulo `size` of the
digest, without carry. -/
def HashFunction.fold (size : Nat) : HashFunction where
  size := size
  digest message := (message.foldl (fun (acc : Nat × Vector UInt8 size) x =>
    let i := acc.1 % size
    (acc.1 + 1, if h : i < size then acc.2.set i (acc.2[i] ^^^ x) else acc.2))
    (0, Vector.replicate size 0)).2

/-- A hash function with the message fed to it so far. -/
structure Hasher where
  function : HashFunction
  fed : Array UInt8 := #[]

namespace Hasher

/-- Feeds a part of the message. -/
def update (h : Hasher) (part : Octets) : Hasher := { h with fed := h.fed ++ part.toArray }

/-- Forgets the message. -/
def reset (h : Hasher) : Hasher := { h with fed := #[] }

/-- The length of the digest. -/
def size (h : Hasher) : Nat := h.function.size

/-- The digest of the message so far. -/
def digest (h : Hasher) : Octets := (h.function.digest h.fed).toList

/-- The digest, and the hasher ready for the next message. -/
def finish (h : Hasher) : Octets × Hasher := (h.digest, h.reset)

/-- The digest for a buffer of `n` octets; a buffer of another length is refused. -/
def finishInto? (h : Hasher) (n : Nat) : Option (Octets × Hasher) :=
  if n = h.size then some h.finish else none

end Hasher

/-- Idle hashers of one function. -/
structure HasherPool where
  function : HashFunction
  /-- The largest number of idle hashers. -/
  capacity : Nat := 2
  idle : List Hasher := []
  disposed : Bool := false

namespace HasherPool

/-- Takes an idle hasher, or makes one. -/
def checkout (p : HasherPool) : Hasher × HasherPool :=
  match p.idle with
  | h :: rest => (h, { p with idle := rest })
  | [] => ({ function := p.function }, p)

/-- Takes a hasher back. A full pool drops it, and so does a pool that was disposed of. -/
def checkin (p : HasherPool) (h : Hasher) : HasherPool :=
  if p.disposed ∨ p.capacity ≤ p.idle.length then p else { p with idle := p.idle ++ [h] }

/-- **Hashes the parts of a message** and gives the first 16 octets of the digest. -/
def digest (p : HasherPool) (parts : List Octets) : Except Error Octets × HasherPool :=
  if p.disposed then (.error .disposed, p)
  else
    let (h, p) := p.checkout
    if h.size < 16 then (.error (.invalidOperation .shortDigest), p)
    else
      let (digest, h) := (parts.foldl Hasher.update h).finish
      (.ok (digest.take 16), p.checkin h)

/-- Drops the idle hashers and refuses every later call. -/
def dispose (p : HasherPool) : HasherPool := { p with idle := [], disposed := true }

/-- The head of the hash of a message. -/
def head (f : HashFunction) (message : Octets) : Octets :=
  (f.digest message.toArray).toList.take 16

/-- Every idle hasher belongs to the function of the pool and has forgotten its last message. -/
def Ready (p : HasherPool) : Prop := ∀ h ∈ p.idle, h = { function := p.function }

theorem ready_checkout {p : HasherPool} (hp : p.Ready) :
    p.checkout.1 = { function := p.function } ∧ p.checkout.2.Ready ∧
      p.checkout.2.function = p.function := by
  unfold checkout
  split
  · rename_i h rest e
    exact ⟨hp h (by simp [e]), fun x hx => hp x (by simp [e, hx]), rfl⟩
  · exact ⟨rfl, hp, rfl⟩

theorem foldl_update_fed (parts : List Octets) (h : Hasher) :
    (parts.foldl Hasher.update h).fed = h.fed ++ parts.flatten.toArray ∧
      (parts.foldl Hasher.update h).function = h.function := by
  induction parts generalizing h with
  | nil => simp
  | cons x xs ih =>
    have := ih (h.update x)
    refine ⟨?_, by simpa [Hasher.update] using this.2⟩
    rw [List.foldl_cons, this.1]
    simp [Hasher.update]

/-- **Before disposal a digest depends on the joined parts alone.** -/
theorem digest_of_ready {p : HasherPool} (hp : p.Ready) (hd : p.disposed = false)
    (h16 : 16 ≤ p.function.size) (parts : List Octets) :
    (p.digest parts).1 = .ok (head p.function parts.flatten) := by
  obtain ⟨h1, -, -⟩ := ready_checkout hp
  have h2 := foldl_update_fed parts p.checkout.1
  have h3 : ¬ p.checkout.1.size < 16 := by rw [h1]; simp [Hasher.size]; omega
  simp only [digest, hd, Bool.false_eq_true, if_false, h3, Hasher.finish, Hasher.digest, head]
  obtain ⟨hf, hg⟩ := h2
  generalize parts.foldl Hasher.update p.checkout.1 = h at hf hg
  obtain ⟨f, fed⟩ := h
  simp only [h1] at hf hg
  subst hf hg
  simp

end HasherPool

end UuidForge
