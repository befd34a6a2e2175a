import UuidForge.Proofs.State.Storage

/-!
# Loads that fail

A file is read in two steps, first the four octets of its tag and then the rest of the record. What
is missing and what is foreign are told apart, also in a file that is foreign and too short. A load
takes over all of a record or nothing.

* `StateRecord.decode_cases`: what a file is read as, told by its tag and its length.
* `GeneratorState.Explains`: what a failed load tells about the file.
* `GeneratorState.failed_load_keeps_clocks`: **a load that fails changes neither the clocks nor the
  random node id**, and tells why it failed.
-/

namespace UuidForge

namespace StateRecord

variable {xs : Octets} {t t' : BitVec 32}

/-- A file starts with the four octets of a tag. -/
def Tagged (t : BitVec 32) (xs : Octets) : Prop := Octets.ofNatLittle 4 t.toNat <+: xs

instance (t : BitVec 32) (xs : Octets) : Decidable (Tagged t xs) :=
  inferInstanceAs (Decidable (_ <+: _))

theorem tagged_iff : Tagged t xs ↔ 4 ≤ xs.length ∧ numberAt xs 0 4 = t.toNat := by
  constructor
  · rintro ⟨rest, rfl⟩
    have hx : Octets.ofNatLittle 4 t.toNat ++ rest =
        [] ++ Octets.ofNatLittle 4 t.toNat ++ rest := rfl
    exact ⟨by simp, numberAt_of_eq hx rfl t.isLt⟩
  · rintro ⟨hl, hn⟩
    have ht : (xs.take 4).length = 4 := by
      rw [List.length_take]
      omega
    have hw := Octets.ofNatLittle_valueLittle (xs.take 4)
    rw [ht] at hw
    rw [Tagged, ← hn, numberAt, List.drop_zero, hw]
    exact List.take_prefix 4 xs

/-- A file starts with one tag only. -/
theorem Tagged.unique (h : Tagged t xs) (h' : Tagged t' xs) : t = t' :=
  BitVec.eq_of_toNat_eq ((tagged_iff.1 h).2.symm.trans (tagged_iff.1 h').2)

/-- Every file that is long enough has a tag. -/
theorem tagged_wordAt (h : 4 ≤ xs.length) : Tagged (wordAt xs 0) xs :=
  tagged_iff.2 ⟨h, (toNat_wordAt xs 0).symm⟩

/-- **What a file is read as**, told by its tag and its length. The tag is looked at first, so a
file with another tag is foreign even if it is too short. -/
theorem decode_cases (xs : Octets) :
    (xs.length < 4 ∧ decode xs = .error .unexpectedEnd) ∨
    (∃ t : BitVec 32, t ≠ 4122 ∧ Tagged t xs ∧ decode xs = .error (.unknownTag t.toInt)) ∨
    (xs.length < size ∧ Tagged 4122 xs ∧ decode xs = .error .unexpectedEnd) ∨
    size ≤ xs.length ∧ Tagged 4122 xs ∧ decode xs = .ok (fieldsOf xs) := by
  by_cases hl : xs.length < 4
  · exact Or.inl ⟨hl, by rw [decode, if_pos hl]⟩
  have ht : Tagged (wordAt xs 0) xs := tagged_wordAt (Nat.le_of_not_lt hl)
  by_cases hn : numberAt xs 0 4 ≠ tag
  · refine Or.inr (Or.inl ⟨wordAt xs 0, fun hw => hn ?_, ht, ?_⟩)
    · rw [← toNat_wordAt, hw]
      rfl
    · rw [decode, if_neg hl, if_pos hn, wordAt]
  have hw : wordAt xs 0 = 4122 :=
    BitVec.eq_of_toNat_eq ((toNat_wordAt xs 0).trans (not_not.1 hn))
  rw [hw] at ht
  by_cases hs : xs.length < size
  · exact Or.inr (Or.inr (Or.inl ⟨hs, ht, by rw [decode, if_neg hl, if_neg hn, if_pos hs]⟩))
  · exact Or.inr (Or.inr (Or.inr
      ⟨Nat.le_of_not_lt hs, ht, by rw [decode, if_neg hl, if_neg hn, if_neg hs]⟩))

/-- **A file is read exactly if it starts with the tag and has the octets of a record.** -/
theorem decode_isOk_iff : (∃ r, decode xs = .ok r) ↔ size ≤ xs.length ∧ Tagged 4122 xs := by
  constructor
  · rintro ⟨r, hr⟩
    obtain ⟨hl, hn, -⟩ := decode_eq_ok_iff.1 hr
    have h4 : 4 ≤ size := by decide
    exact ⟨hl, tagged_iff.2 ⟨h4.trans hl, hn⟩⟩
  · rintro ⟨hl, ht⟩
    exact ⟨_, decode_eq_ok_iff.2 ⟨hl, (tagged_iff.1 ht).2, rfl⟩⟩

end StateRecord

namespace GeneratorState

open StateRecord (Tagged size)

variable {s : GeneratorState} {files : FileTree} {path : String} {cause : StorageError}

/-- **What a failed load tells about the file**, or about the way to it. -/
structure Explains (path : String) (load : Except LoadError Octets) (cause : StorageError) :
    Prop where
  missing : cause = .fileNotFound path ↔ load = .error .missing
  incomplete : cause = .unexpectedEnd ↔
    ∃ xs, load = .ok xs ∧ (xs.length < 4 ∨ xs.length < size ∧ Tagged 4122 xs)
  foreign (t : BitVec 32) : cause = .unknownTag t.toInt ↔
    ∃ xs, load = .ok xs ∧ Tagged t xs ∧ t ≠ 4122
  refused : cause = .io ↔ load = .error .refused

/-- The two ways in which a file that is there is not read. -/
theorem explains_of_decode {xs : Octets} (h : StateRecord.decode xs = .error cause) :
    Explains path (.ok xs) cause := by
  -- a file has one tag only, and none if it has no four octets
  have hshort : ∀ t, Tagged t xs → ¬ xs.length < 4 := fun t ht =>
    Nat.not_lt.2 (StateRecord.tagged_iff.1 ht).1
  rcases StateRecord.decode_cases xs with ⟨hl, hd⟩ | ⟨t, hne, ht, hd⟩ | ⟨hl, ht, hd⟩ | ⟨-, -, hd⟩
  · obtain rfl : .unexpectedEnd = cause := Except.error.inj (hd.symm.trans h)
    refine ⟨by simp, iff_of_true rfl ⟨xs, rfl, Or.inl hl⟩, fun t => ?_, by simp⟩
    refine iff_of_false (by simp) ?_
    rintro ⟨_, ⟨⟩, ht, -⟩
    exact hshort t ht hl
  · obtain rfl : .unknownTag t.toInt = cause := Except.error.inj (hd.symm.trans h)
    refine ⟨by simp, iff_of_false (by simp) ?_, fun t' => ⟨fun he => ?_, ?_⟩, by simp⟩
    · rintro ⟨_, ⟨⟩, hl | ⟨-, ht'⟩⟩
      · exact hshort t ht hl
      · exact hne (ht.unique ht')
    · obtain rfl : t = t' := BitVec.toInt_inj.1 (StorageError.unknownTag.inj he)
      exact ⟨xs, rfl, ht, hne⟩
    · rintro ⟨_, ⟨⟩, ht', -⟩
      rw [ht.unique ht']
  · obtain rfl : .unexpectedEnd = cause := Except.error.inj (hd.symm.trans h)
    refine ⟨by simp, iff_of_true rfl ⟨xs, rfl, Or.inr ⟨hl, ht⟩⟩, fun t' => ?_, by simp⟩
    refine iff_of_false (by simp) ?_
    rintro ⟨_, ⟨⟩, ht', hne⟩
    exact hne (ht'.unique ht)
  · rw [hd] at h
    cases h

/-- **The cause of a failed load explains it.** -/
theorem explains_of_error (h : loadRecord files path = .error cause) :
    Explains path (files.load (.ofString path)) cause := by
  unfold loadRecord at h
  cases hl : files.load (.ofString path) with
  | ok xs =>
    rw [hl] at h
    exact explains_of_decode h
  | error x =>
    rw [hl] at h
    cases x with
    | missing =>
      obtain rfl : .fileNotFound path = cause := Except.error.inj h
      exact ⟨by simp, by simp, by simp, by simp⟩
    | refused =>
      obtain rfl : .io = cause := Except.error.inj h
      exact ⟨by simp, by simp, by simp, by simp⟩

theorem loadRecord_isOk_iff : (∃ r, loadRecord files path = .ok r) ↔
    ∃ xs, files.load (.ofString path) = .ok xs ∧ size ≤ xs.length ∧ Tagged 4122 xs := by
  unfold loadRecord
  cases hl : files.load (.ofString path) with
  | ok xs =>
    simpa using StateRecord.decode_isOk_iff
  | error x => cases x <;> simp

/-- **A load that fails changes no clock.** Whatever a state is and whatever lies at a path: the
state is attached to the path, and the load succeeds exactly if a file is there that starts with the
tag and has the octets of a record. If it fails, both clock domains and the random node id are as
before, nothing is drawn, and the failure that is remembered explains what is wrong with the
file. -/
theorem failed_load_keeps_clocks (s : GeneratorState) (path : String) (files : FileTree)
    (e : Entropy) :
    (s.attach (some path) files e).2.1.path = some path ∧
    ((s.attach (some path) files e).1 = true ↔
      ∃ xs, files.load (.ofString path) = .ok xs ∧ size ≤ xs.length ∧ Tagged 4122 xs) ∧
    ((s.attach (some path) files e).1 = false →
      (s.attach (some path) files e).2.1.physical = s.physical ∧
      (s.attach (some path) files e).2.1.random = s.random ∧
      (s.attach (some path) files e).2.1.randomNode = s.randomNode ∧
      (s.attach (some path) files e).2.2 = e ∧
      ∃ cause, (s.attach (some path) files e).2.1.lastFailure = some ⟨.read, path, cause⟩ ∧
        Explains path (files.load (.ofString path)) cause) := by
  cases hl : loadRecord files path with
  | ok r =>
    rw [attach_of_ok hl, ← loadRecord_isOk_iff]
    exact ⟨rfl, iff_of_true rfl ⟨r, hl⟩, fun h => nomatch h⟩
  | error cause =>
    rw [attach_of_error hl, ← loadRecord_isOk_iff]
    refine ⟨rfl, iff_of_false (by simp) ?_, fun _ => ⟨rfl, rfl, rfl, rfl, cause, rfl, ?_⟩⟩
    · rintro ⟨r, hr⟩
      rw [hl] at hr
      cases hr
    · exact explains_of_error hl

/-- A tree with a file that is foreign and too short. -/
def shortFile : FileTree := { entries := [(["state.bin"], .file [0x1b, 0x10, 0, 0, 7])] }

/-- A state that has handed out a sequence. -/
def advanced : GeneratorState :=
  { physical := { last := 1000, sequence := 5, node := some 1 }
    random := ClockState.new 7
    randomNode := some 2
    path := some "old.bin"
    lastSave := some 0 }

/-- The load fails for the tag, not for the length, and keeps all that the state handed out. -/
theorem failed_load_keeps_clocks_short (e : Entropy) :
    (advanced.attach (some "state.bin") shortFile e).1 = false ∧
      (advanced.attach (some "state.bin") shortFile e).2.1.physical = advanced.physical ∧
      (advanced.attach (some "state.bin") shortFile e).2.1.lastFailure =
        some ⟨.read, "state.bin", .unknownTag 4123⟩ := by
  have hload : shortFile.load (.ofString "state.bin") = .ok [0x1b, 0x10, 0, 0, 7] := by decide
  obtain ⟨-, hok, hfail⟩ := failed_load_keeps_clocks advanced "state.bin" shortFile e
  have ha : (advanced.attach (some "state.bin") shortFile e).1 = false := by
    rw [Bool.eq_false_iff, ne_eq, hok, hload]
    rintro ⟨_, ⟨⟩, hl, -⟩
    exact absurd hl (by decide)
  obtain ⟨hp, -, -, -, cause, hc, hx⟩ := hfail ha
  have hforeign : cause = .unknownTag 4123 :=
    (hx.foreign 4123).2 ⟨_, hload, by decide, by decide⟩
  exact ⟨ha, hp, hforeign ▸ hc⟩

end GeneratorState

end UuidForge
