import UuidForge.Proofs.Custom.Checked
import UuidForge.Proofs.Uuid.Octets
import UuidForge.Proofs.Uuid.Stamp

/-!
# The time in the example layout

The example layout writes seconds and the fraction of a second one after the other, each rounded
down. Together they are one number of 48 bits: the time in units of `2 ^ -16` seconds.

* `ExampleLayout.fill_eq`: a fill in closed form.
* `ExampleLayout.leading_layOut`: **the first 48 bits are the time**, rounded down once.
* `ExampleLayout.octets_layOut`: all octets of a UUID with the example layout.
* `ExampleLayout.sortable_fixed_point`: **which times are accepted, and in which order** their UUIDs
  are.
-/

namespace UuidForge

namespace ExampleLayout

/-- The layout reaches a point of time, in ticks since 2020. -/
def Reaches (t : Ticks) : Prop := 0 ≤ t.toInt ∧ t.toInt < bound

instance (t : Ticks) : Decidable (Reaches t) := inferInstanceAs (Decidable (_ ∧ _))

/-- The time in units of `2 ^ -16` seconds, rounded down. -/
def fixedPoint (t : Ticks) : ℕ := (t.toInt * 65536 / 10000000).toNat

/-- The UUID with a time, an octet of a node id and a sequence number in their slices. -/
def layOut (t : Ticks) (node : NodeId) (sequence : BitVec 8) (u : Uuid) : Uuid :=
  let u := Slice.timeLow.write u (BitVec.ofInt 32 (t.toInt / 10000000))
  let u := Slice.timeMid.write u (BitVec.ofNat 16 ((t.toInt % 10000000).toNat * 65536 / 10000000))
  sequenceOctet.write (nodeOctet.write u (node.octet 4)) sequence

variable {t t' : Ticks} {node node' : NodeId} {c c' : FillContext} {sequence sequence' : BitVec 8}
  {u u' v v' : Uuid}

/-! ## A fill -/

/-- **A fill in closed form.** The time is checked before the node id. -/
theorem fill_eq (c : FillContext) (sequence : BitVec 8) (u : Uuid) : fill c sequence u =
    if Reaches c.time then
      match c.node with
      | some node => (.ok (layOut c.time node (sequence + 1) u), sequence + 1)
      | none => (.error (.notSupported .nodeId), sequence)
    else (.error outOfRange, sequence) := by
  have hrange : 0 ≤ c.time.toInt / 10000000 ∧ c.time.toInt / 10000000 < 0x100000000 ↔
      Reaches c.time := seconds_range_iff c.time
  unfold fill
  dsimp only
  by_cases h : Reaches c.time
  · rw [if_pos (hrange.2 h), if_pos h]
    unfold FillContext.nodeId
    cases c.node with
    | some node => rfl
    | none => rfl
  · rw [if_neg (mt hrange.1 h), if_neg h]

theorem fill_eq_ok_iff : (fill c sequence u).1 = .ok v ↔
    Reaches c.time ∧ ∃ node, c.node = some node ∧ v = layOut c.time node (sequence + 1) u := by
  rw [fill_eq]
  by_cases h : Reaches c.time
  · rw [if_pos h]
    cases hn : c.node with
    | some node => simp [h, eq_comm]
    | none => simp
  · rw [if_neg h]
    simp [h]

/-! ## What it writes -/

theorem fixedPoint_eq (h : Reaches t) : (fixedPoint t : ℤ) = t.toInt * 65536 / 10000000 := by
  unfold Reaches at h
  unfold fixedPoint
  omega

/-- Whole seconds are whole units, so that only their rest is rounded. -/
theorem fixedPoint_split (t : ℤ) :
    t * 65536 / 10000000 = t / 10000000 * 65536 + t % 10000000 * 65536 / 10000000 := by
  have hrest : t * 65536 = t % 10000000 * 65536 + t / 10000000 * 65536 * 10000000 := by omega
  rw [hrest, Int.add_mul_ediv_right _ _ (by decide), Int.add_comm]

/-- The first 48 bits are two fields. -/
theorem leading_eq (u : Uuid) : (Slice.leading.read u).toNat =
    (Slice.timeLow.read u).toNat * 65536 + (Slice.timeMid.read u).toNat := by
  have htile : Tile (Slice.leading.start + Slice.leading.width) [Slice.timeLow, Slice.timeMid]
    Slice.leading.start := by decide
  rw [Slice.read_of_tile htile, gather_cons, Nat.shiftLeft_eq]
  simp [gather, totalWidth]

/-- **The first 48 bits are the time.** Seconds and fraction are rounded down apart from each other,
which comes to the same as rounding down once. -/
theorem leading_layOut (h : Reaches t) :
    (Slice.leading.read (layOut t node sequence u)).toNat = fixedPoint t := by
  have hlow : Slice.timeLow.read (layOut t node sequence u) =
      BitVec.ofInt 32 (t.toInt / 10000000) := by
    simp (disch := decide) only [layOut, Slice.read_write, Slice.read_write_of_apart]
  have hmid : Slice.timeMid.read (layOut t node sequence u) =
      BitVec.ofNat 16 ((t.toInt % 10000000).toNat * 65536 / 10000000) := by
    simp (disch := decide) only [layOut, Slice.read_write, Slice.read_write_of_apart]
  unfold Reaches bound at h
  have hseconds : (BitVec.ofInt 32 (t.toInt / 10000000)).toNat = (t.toInt / 10000000).toNat := by
    rw [BitVec.toNat_ofInt, Int.emod_eq_of_lt (by omega) (by omega)]
  have hfraction : (BitVec.ofNat 16 ((t.toInt % 10000000).toNat * 65536 / 10000000)).toNat =
      (t.toInt % 10000000).toNat * 65536 / 10000000 := by
    rw [BitVec.toNat_ofNat]
    omega
  have hrest : (((t.toInt % 10000000).toNat * 65536 / 10000000 : ℕ) : ℤ) =
      t.toInt % 10000000 * 65536 / 10000000 := by omega
  have hpos : 0 ≤ t.toInt / 10000000 := by omega
  rw [leading_eq, hlow, hmid, hseconds, hfraction, fixedPoint, fixedPoint_split, ← hrest]
  omega

/-- All other octets but the last two are those of the UUID that is filled. -/
theorem read_layOut_of_apart {s : Slice} (htime : s.Apart Slice.leading) (hlast : s.Apart ⟨0, 16⟩) :
    s.read (layOut t node sequence u) = s.read u := by
  have hparts : s.Apart Slice.timeLow ∧ s.Apart Slice.timeMid ∧ s.Apart nodeOctet ∧
      s.Apart sequenceOctet := by
    unfold Slice.Apart at htime hlast ⊢
    dsimp only at htime hlast ⊢
    omega
  obtain ⟨h1, h2, h3, h4⟩ := hparts
  unfold layOut
  dsimp only
  rw [Slice.read_write_of_apart h4, Slice.read_write_of_apart h3, Slice.read_write_of_apart h2,
    Slice.read_write_of_apart h1]

/-- The octets of a UUID, cut where the layout cuts them. -/
theorem octets_eq (u : Uuid) : u.octets =
    Octets.ofNat 6 (Slice.leading.read u).toNat ++
      Octets.ofNat 8 ((⟨16, 64⟩ : Slice).read u).toNat ++
      [UInt8.ofNat (nodeOctet.read u).toNat, UInt8.ofNat (sequenceOctet.read u).toNat] := by
  have htile : Tile 128 [Slice.leading, ⟨16, 64⟩, nodeOctet, sequenceOctet] 0 := by decide
  have hflat := Uuid.octets_of_tile htile (by decide) u
  simp only [List.flatMap_cons, List.flatMap_nil, List.append_nil, Nat.reduceDiv,
    Octets.ofNat_one] at hflat
  rw [hflat, List.append_assoc]
  rfl

/-- **All octets.** The time takes the first six, the node id and the sequence number the last two.
-/
theorem octets_layOut (h : Reaches t) : (layOut t node sequence u).octets =
    Octets.ofNat 6 (fixedPoint t) ++ (u.octets.drop 6).take 8 ++
      [UInt8.ofNat (node.octet 4).toNat, UInt8.ofNat sequence.toNat] := by
  have hnode : nodeOctet.read (layOut t node sequence u) = node.octet 4 := by
    simp (disch := decide) only [layOut, Slice.read_write, Slice.read_write_of_apart]
  have hsequence : sequenceOctet.read (layOut t node sequence u) = sequence := by
    simp (disch := decide) only [layOut, Slice.read_write]
  have hkept : (⟨16, 64⟩ : Slice).read (layOut t node sequence u) = (⟨16, 64⟩ : Slice).read u :=
    read_layOut_of_apart (by decide) (by decide)
  have hmiddle : (u.octets.drop 6).take 8 = Octets.ofNat 8 ((⟨16, 64⟩ : Slice).read u).toNat := by
    rw [octets_eq, List.append_assoc, List.drop_left' (Octets.length_ofNat 6 _),
      List.take_left' (Octets.length_ofNat 8 _)]
  rw [octets_eq, leading_layOut h, hkept, hnode, hsequence, hmiddle]

theorem take_octets (u : Uuid) : u.octets.take 6 = Octets.ofNat 6 (Slice.leading.read u).toNat := by
  rw [octets_eq, List.append_assoc, List.take_left' (Octets.length_ofNat 6 _)]

/-- The first six octets are a number of 48 bits. -/
theorem value_take_octets (u : Uuid) : Octets.value (u.octets.take 6) =
    (Slice.leading.read u).toNat := by
  rw [take_octets, Octets.value_ofNat]
  exact Nat.mod_eq_of_lt (Slice.leading.read u).isLt

/-- Version and variant are not in the first six octets. -/
theorem leading_stamp (u : Uuid) :
    Slice.leading.read (u.stamp .v8 .rfc4122) = Slice.leading.read u :=
  Uuid.read_stamp_of_apart u .v8 .rfc4122 (by decide) (by decide)

theorem leading_of_fill (h : (fill c sequence u).1 = .ok v) :
    ((Slice.leading.read v).toNat : ℤ) = c.time.toInt * 2 ^ 16 / 10 ^ 7 := by
  obtain ⟨hreach, node, -, hv⟩ := fill_eq_ok_iff.1 h
  rw [hv, leading_layOut hreach]
  exact fixedPoint_eq hreach

/-- 153 ticks are more than one unit. -/
theorem stamp_lt_stamp (h : (fill c sequence u).1 = .ok v) (h' : (fill c' sequence' u').1 = .ok v')
    (hgap : 153 ≤ c'.time.toInt - c.time.toInt) :
    v.stamp .v8 .rfc4122 < v'.stamp .v8 .rfc4122 := by
  have hv := leading_of_fill h
  have hv' := leading_of_fill h'
  refine Uuid.lt_of_read_lt [] Slice.leading 80 (by decide) (by simp) ?_
  rw [leading_stamp, leading_stamp]
  omega

/-! ## Its times and their order -/

/-- What a generator hands out is what its layout made of the time since the epoch, and stamped. -/
theorem exists_fill_of_next {g : Custom} {h : Host} {w : Uuid} (hl : g.fill.IsExample)
    (hw : (g.next h).1.1 = .ok w) : ∃ c sequence u v, c.time = (g.source.read h).1.1 - g.epoch ∧
      (fill c sequence u).1 = .ok v ∧ w = v.stamp .v8 .rfc4122 := by
  have hnext : ∃ c u h', c.time = (g.source.read h).1.1 - g.epoch ∧
      (g.next h).1.1 = (g.fill.run c u h').1.1.map (·.stamp .v8 .rfc4122) := ⟨_, _, _, rfl, rfl⟩
  obtain ⟨c, u, h', hc, hnext⟩ := hnext
  obtain ⟨v, hrun, hv⟩ := map_eq_ok_iff.1 (hnext.symm.trans hw)
  cases hg : g.fill with
  | exampleLayout sequence =>
    rw [hg] at hrun
    exact ⟨c, sequence, u, v, hc, hrun, hv.symm⟩
  | sharedExample =>
    rw [hg] at hrun
    exact ⟨c, h'.exampleSequence, u, v, hc, hrun, hv.symm⟩
  | function | recalling =>
    rw [hg] at hl
    cases hl

/-- **The example layout is an exact time that sorts.** It takes a time exactly if that lies in the
`2 ^ 32` seconds since the epoch, given a node id. The first six octets are the time in units of
`2 ^ -16` seconds, rounded down, so they never decrease; UUIDs whose times are 153 ticks apart are
in the order of their times, whatever else they hold. Every UUID of a generator with this layout is
one of these. -/
theorem sortable_fixed_point :
    (∀ c sequence u, (∃ v, (fill c sequence u).1 = .ok v) ↔
      (0 ≤ c.time.toInt ∧ c.time.toInt < 2 ^ 32 * 10 ^ 7) ∧ c.node.isSome) ∧
    (∀ c sequence u v, (fill c sequence u).1 = .ok v →
      (Octets.value (v.octets.take 6) : ℤ) = c.time.toInt * 2 ^ 16 / 10 ^ 7 ∧
        (v.stamp .v8 .rfc4122).octets.take 6 = v.octets.take 6) ∧
    (∀ c c' sequence sequence' u u' v v', (fill c sequence u).1 = .ok v →
      (fill c' sequence' u').1 = .ok v' → c.time.toInt ≤ c'.time.toInt →
      Octets.value (v.octets.take 6) ≤ Octets.value (v'.octets.take 6) ∧
        (153 ≤ c'.time.toInt - c.time.toInt →
          v.stamp .v8 .rfc4122 < v'.stamp .v8 .rfc4122)) ∧
    ∀ (g : Custom) (h : Host) (w : Uuid), g.fill.IsExample → (g.next h).1.1 = .ok w →
      ∃ c sequence u v, c.time = (g.source.read h).1.1 - g.epoch ∧
        (fill c sequence u).1 = .ok v ∧ w = v.stamp .v8 .rfc4122 := by
  refine ⟨fun c sequence u => ?_, fun c sequence u v h => ⟨?_, ?_⟩, ?_, fun g h w hl hw => ?_⟩
  · simp only [fill_eq_ok_iff, Option.isSome_iff_exists]
    exact ⟨fun ⟨_, hreach, node, hn, _⟩ => ⟨hreach, node, hn⟩,
      fun ⟨hreach, node, hn⟩ => ⟨_, hreach, node, hn, rfl⟩⟩
  · rw [value_take_octets]
    exact leading_of_fill h
  · rw [take_octets, take_octets, leading_stamp]
  · intro c c' sequence sequence' u u' v v' h h' hle
    have hv := leading_of_fill h
    have hv' := leading_of_fill h'
    refine ⟨?_, stamp_lt_stamp h h'⟩
    rw [value_take_octets, value_take_octets]
    omega
  · exact exists_fill_of_next hl hw

/-- A UUID of the first tick with all bits set, and one 153 ticks later with none. -/
theorem sortable_fixed_point_first :
    (layOut 0 0 0xff Uuid.max).stamp .v8 .rfc4122 < (layOut 153 0 0 Uuid.nil).stamp .v8 .rfc4122 :=
  have h : (fill ⟨0, some 0⟩ 0xfe Uuid.max).1 = .ok (layOut 0 0 0xff Uuid.max) := by decide
  have h' : (fill ⟨153, some 0⟩ 0xff Uuid.nil).1 = .ok (layOut 153 0 0 Uuid.nil) := by decide
  (sortable_fixed_point.2.2.1 _ _ _ _ _ _ _ _ h h' (by decide)).2 (by decide)

end ExampleLayout

end UuidForge
