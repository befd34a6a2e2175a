import UuidForge.Proofs.Uuid.Sorting

/-!
# The order of texts and of their octets

UTF-8 writes a character as a first octet, and up to three that follow it and hold six bits each.
First octets are in the order of the characters as far as they tell characters apart, and no first
octet of a longer character is one of a shorter. So texts are in the order of their octets.

* `Octets.text?_eq_some_iff`: octets are read as the text that they encode, and as no other.
* `Text.encodeChar_append_lt`: **the first character that differs decides** about the octets.
* `Octets.ofText_lt_ofText_iff`: **texts are in the order of their octets.**
-/

namespace UuidForge

/-! ## Texts as octets -/

/-- The octets of a text in UTF-8. -/
def Octets.ofText (s : String) : Octets := s.toList.flatMap String.utf8EncodeChar

/-- **Octets are read as the text that they encode.** -/
theorem Octets.text?_eq_some_iff {xs : Octets} {s : String} :
    xs.text? = some s ↔ xs = Octets.ofText s := by
  have hbytes : ∀ s : String, s.toByteArray = ⟨(Octets.ofText s).toArray⟩ := by
    intro s
    rw [← String.utf8Encode_toList]
    exact ByteArray.ext List.data_toByteArray
  have hinj : (⟨xs.toArray⟩ : ByteArray) = s.toByteArray ↔ xs = Octets.ofText s := by
    rw [hbytes, ByteArray.mk.injEq, Array.mk.injEq]
  rw [← hinj]
  unfold text? String.fromUTF8?
  constructor
  · intro h
    split at h
    · cases h
      rfl
    · cases h
  · intro h
    have hvalid : (⟨xs.toArray⟩ : ByteArray).IsValidUTF8 := h ▸ s.isValidUTF8
    rw [dif_pos hvalid]
    exact congrArg some (String.toByteArray_inj.1 h)

/-! ## Digits that are cut off -/

namespace Radix

variable {b n v w : ℕ}

theorem digits_mod (hb : 0 < b) : digits b n (v % Nat.pow b n) = digits b n v := by
  have hproper : ∀ d ∈ digits b n v, d < b := fun d => lt_of_mem_digits hb
  have hback := digits_value hproper
  rwa [length_digits, value_digits] at hback

/-- The last digits decide if nothing before them does. -/
theorem digits_lt_of_div_eq (hb : 0 < b) (h : v < w) (hdiv : v / Nat.pow b n = w / Nat.pow b n) :
    digits b n v < digits b n w := by
  have hpos : 0 < Nat.pow b n := Nat.pow_pos hb
  have hv := Nat.div_add_mod v (Nat.pow b n)
  have hw := Nat.div_add_mod w (Nat.pow b n)
  have hmod : v % Nat.pow b n < w % Nat.pow b n := by
    rw [hdiv] at hv
    omega
  rw [← digits_mod hb, ← digits_mod hb (v := w)]
  exact (digits_lt_digits_iff hb (Nat.mod_lt v hpos) (Nat.mod_lt w hpos)).2 hmod

end Radix

/-- Lists of one length decide, whatever is behind them. -/
theorem append_lt_append {α : Type} [LT α] {xs ys : List α} (hl : xs.length = ys.length)
    (h : xs < ys) (xs' ys' : List α) : xs ++ xs' < ys ++ ys' := by
  induction xs generalizing ys with
  | nil =>
    cases List.eq_nil_of_length_eq_zero hl.symm
    cases h
  | cons x xs ih =>
    obtain ⟨y, ys, rfl⟩ := List.exists_cons_of_length_eq_add_one hl.symm
    rw [List.cons_append, List.cons_append]
    rw [List.cons_lt_cons_iff] at h ⊢
    exact h.imp_right fun ⟨heq, hlt⟩ => ⟨heq, ih (Nat.succ.inj hl) hlt⟩

namespace Text

/-! ## Characters as octets -/

/-- How many octets follow the first one of a character. -/
def following (c : Char) : ℕ :=
  if c.toNat ≤ 0x7f then 0 else if c.toNat ≤ 0x7ff then 1 else if c.toNat ≤ 0xffff then 2 else 3

/-- What the first octet of a character holds. -/
def leading (c : Char) : ℕ :=
  if c.toNat ≤ 0x7f then c.toNat
  else if c.toNat ≤ 0x7ff then 0xc0 + c.toNat / 64
  else if c.toNat ≤ 0xffff then 0xe0 + c.toNat / 4096
  else 0xf0 + c.toNat / 262144

/-- An octet with six bits of a character. -/
def continuation (d : ℕ) : UInt8 := UInt8.ofNat (d + 0x80)

variable {c d : Char}

theorem toNat_lt (c : Char) : c.toNat < 0x110000 := by
  have hvalid : c.toNat < 0xd800 ∨ 0xdfff < c.toNat ∧ c.toNat < 0x110000 := c.valid
  omega

/-- A character in UTF-8. -/
theorem utf8EncodeChar_eq (c : Char) : String.utf8EncodeChar c =
    UInt8.ofNat (leading c) :: (Radix.digits 64 (following c) c.toNat).map continuation := by
  have hlt := toNat_lt c
  have hval : c.val.toNat = c.toNat := rfl
  unfold String.utf8EncodeChar leading following
  dsimp only
  rw [hval]
  split
  · rfl
  · split
    · have hfirst : c.toNat / 64 % 32 + 192 = 0xc0 + c.toNat / 64 := by omega
      rw [hfirst]
      rfl
    · split
      · have hfirst : c.toNat / 4096 % 16 + 224 = 0xe0 + c.toNat / 4096 := by omega
        rw [hfirst]
        rfl
      · have hfirst : c.toNat / 262144 % 8 + 240 = 0xf0 + c.toNat / 262144 := by omega
        have hsecond : c.toNat / 4096 = c.toNat / 64 / 64 := by omega
        rw [hfirst, hsecond]
        rfl

/-- **First octets are in the order of the characters**, and tell them apart up to what follows. -/
theorem leading_lt_leading (h : c < d) : leading c < leading d ∨
    leading c = leading d ∧ following c = following d ∧
      c.toNat / Nat.pow 64 (following c) = d.toNat / Nat.pow 64 (following c) := by
  have hlt : c.toNat < d.toNat := h
  have hd := toNat_lt d
  unfold leading following
  split_ifs <;> simp <;> omega

theorem leading_lt (c : Char) : leading c < 256 := by
  have hlt := toNat_lt c
  unfold leading
  split_ifs
  · omega
  · omega
  · omega
  · omega

theorem map_continuation_lt {xs ys : List ℕ} (hx : ∀ x ∈ xs, x < 64) (hy : ∀ y ∈ ys, y < 64)
    (h : xs < ys) : xs.map continuation < ys.map continuation := by
  have hoctet : ∀ zs : List ℕ, (∀ z ∈ zs, z < 64) →
      (zs.map continuation).map UInt8.toNat = zs.map (· + 0x80) := by
    intro zs hz
    rw [List.map_map]
    refine List.map_congr_left fun z hmem => UInt8.toNat_ofNat_of_lt' ?_
    have hlt := hz z hmem
    show z + 0x80 < 256
    omega
  rw [← Octets.map_toNat_lt_iff, hoctet xs hx, hoctet ys hy]
  exact List.map_lt (fun _ _ hlt => Nat.add_lt_add_right hlt _) h

/-- **The first character that differs decides**, whatever comes behind it. -/
theorem encodeChar_append_lt (h : c < d) (xs ys : Octets) :
    String.utf8EncodeChar c ++ xs < String.utf8EncodeChar d ++ ys := by
  have hoctet : ∀ c, (UInt8.ofNat (leading c)).toNat = leading c :=
    fun c => UInt8.toNat_ofNat_of_lt' (leading_lt c)
  rw [utf8EncodeChar_eq, utf8EncodeChar_eq, List.cons_append, List.cons_append,
    List.cons_lt_cons_iff, UInt8.lt_iff_toNat_lt, ← UInt8.toNat_inj, hoctet, hoctet]
  refine (leading_lt_leading h).imp_right fun ⟨hleading, hfollowing, hdiv⟩ => ⟨hleading, ?_⟩
  rw [← hfollowing]
  refine append_lt_append (by simp) ?_ xs ys
  have hproper : ∀ v, ∀ x ∈ Radix.digits 64 (following c) v, x < 64 :=
    fun v x => Radix.lt_of_mem_digits (by decide)
  exact map_continuation_lt (hproper _) (hproper _) (Radix.digits_lt_of_div_eq (by decide) h hdiv)

theorem flatMap_encodeChar_lt {cs ds : List Char} (h : cs < ds) :
    cs.flatMap String.utf8EncodeChar < ds.flatMap String.utf8EncodeChar := by
  induction cs generalizing ds with
  | nil =>
    cases ds with
    | nil => cases h
    | cons d ds =>
      rw [List.flatMap_cons, utf8EncodeChar_eq]
      exact List.nil_lt_cons _ _
  | cons c cs ih =>
    cases ds with
    | nil => cases h
    | cons d ds =>
      rw [List.flatMap_cons, List.flatMap_cons]
      rcases List.cons_lt_cons_iff.1 h with hlt | ⟨heq, hlt⟩
      · exact encodeChar_append_lt hlt _ _
      · rw [heq]
        exact List.append_left_lt (ih hlt)

end Text

/-- **Texts are in the order of their octets.** -/
theorem Octets.ofText_lt_ofText_iff {s t : String} :
    Octets.ofText s < Octets.ofText t ↔ s < t := by
  rw [String.lt_iff]
  refine ⟨fun h => ?_, Text.flatMap_encodeChar_lt⟩
  by_contra hlt
  rcases List.le_iff_lt_or_eq.1 (List.not_lt.1 hlt) with hgt | heq
  · exact List.lt_asymm h (Text.flatMap_encodeChar_lt hgt)
  · unfold ofText at h
    rw [heq] at h
    exact List.lt_irrefl _ h

end UuidForge
