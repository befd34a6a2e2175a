/-!
# Positional notation of fixed width

Numbers as lists of digits, most significant first. Octets are the digits in base 256,
hexadecimal text the digits in base 16.

* `Radix.value_digits`: reading the `n` digits of `v` gives `v` modulo `b ^ n`.
* `Radix.digits_value`: writing what a list of proper digits denotes gives the list back.
-/

namespace UuidForge.Radix

/-- The last `n` digits of `v` in base `b`, most significant first. -/
def digits (b : Nat) : Nat → Nat → List Nat
  | 0, _ => []
  | n + 1, v => digits b n (v / b) ++ [v % b]

/-- The number that a list of digits in base `b` denotes. -/
def value (b : Nat) (ds : List Nat) : Nat := ds.foldl (fun v d => v * b + d) 0

@[simp] theorem length_digits (b n v : Nat) : (digits b n v).length = n := by
  induction n generalizing v with
  | zero => rfl
  | succ n ih => simp [digits, ih]

/-- Every digit is below the base. -/
theorem lt_of_mem_digits {b n v d : Nat} (hb : 0 < b) (h : d ∈ digits b n v) : d < b := by
  induction n generalizing v with
  | zero => simp [digits] at h
  | succ n ih =>
    rcases List.mem_append.1 h with h | h
    · exact ih h
    · rw [List.mem_singleton.1 h]; exact Nat.mod_lt _ hb

@[simp] theorem value_append_singleton (b : Nat) (ds : List Nat) (d : Nat) :
    value b (ds ++ [d]) = value b ds * b + d := by
  simp [value]

/-- **Reading back.** The `n` digits of `v` denote `v` modulo `b ^ n`. -/
theorem value_digits (b n v : Nat) : value b (digits b n v) = v % Nat.pow b n := by
  induction n generalizing v with
  | zero => simp [digits, value, Nat.mod_one]
  | succ n ih =>
    have h : Nat.pow b (n + 1) = b * Nat.pow b n := Nat.mul_comm ..
    rw [digits, value_append_singleton, ih, h, Nat.mod_mul, Nat.mul_comm, Nat.add_comm]

/-- **Writing back.** A list of proper digits is the writing of what it denotes. -/
theorem digits_value {b : Nat} {ds : List Nat} (h : ∀ d ∈ ds, d < b) :
    digits b ds.length (value b ds) = ds := by
  obtain ⟨rs, rfl⟩ : ∃ rs, ds = rs.reverse := ⟨ds.reverse, by simp⟩
  induction rs with
  | nil => rfl
  | cons d rs ih =>
    have hd : d < b := h d (by simp)
    have hb : 0 < b := by omega
    have ih := ih fun x hx => h x (by simp at hx; simp [hx])
    rw [List.reverse_cons, List.length_append, List.length_singleton, digits,
      value_append_singleton, Nat.mul_comm, Nat.mul_add_div hb, Nat.div_eq_of_lt hd, Nat.add_zero,
      Nat.mul_add_mod, Nat.mod_eq_of_lt hd, ih]

end UuidForge.Radix
