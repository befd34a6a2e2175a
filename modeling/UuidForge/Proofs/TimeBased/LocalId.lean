import UuidForge.Proofs.Clock.Answer
import UuidForge.Proofs.Generator.Use
import UuidForge.Proofs.Uuid.Octets

/-!
# Version 2 beside version 1

A UUID of version 2 is the UUID of version 1 for the same stamp, with a local id in place of the low
part of the time, a domain in place of the low part of the clock sequence, and its own version.

* `Uuid.octets_withLocalId`: the three replacements, told by octets.
* `TimeStamp.dceUuid_eq`: **a stamp has a UUID of version 2 exactly if it has one of version 1**,
  which differs from it in the three fields alone.
* `DceSecurity.next_replaces`: so do generators of the two versions in the same state, and both move
  their clock alike.
-/

namespace UuidForge

/-- The octets with a local id in octets 0 to 3, its domain in octet 9 and 2 in the upper half of
octet 6. -/
def Octets.withLocalId (xs : Octets) (d : LocalDomain) (localId : BitVec 32) : Octets :=
  ((Octets.ofNat 4 localId.toNat ++ xs.drop 4).set 9 (UInt8.ofNat d.number.toNat)).modify 6
    (· % 16 + 0x20)

/-- A local id, its domain and version 2 in place of what stands in their fields. -/
def Uuid.withLocalId (u : Uuid) (d : LocalDomain) (localId : BitVec 32) : Uuid :=
  ((u.setTimeLow localId).setClockLow d.number).withVersion .v2

namespace Uuid

variable (u : Uuid) (d : LocalDomain) (localId : BitVec 32)

/-! ## The three replacements -/

theorem read_withLocalId :
    Slice.timeLow.read (u.withLocalId d localId) = localId ∧
      Slice.clockLow.read (u.withLocalId d localId) = d.number ∧
      Slice.version.read (u.withLocalId d localId) = Version.v2.number := by
  simp (disch := decide) only [withLocalId, withVersion, setClockLow, setTimeLow, Slice.read_write,
    Slice.read_write_of_apart, and_self]

/-- **Nothing else is replaced.** -/
theorem read_withLocalId_of_apart {s : Slice} (htime : s.Apart Slice.timeLow)
    (hclock : s.Apart Slice.clockLow) (hversion : s.Apart Slice.version) :
    s.read (u.withLocalId d localId) = s.read u := by
  rw [withLocalId, withVersion, setClockLow, setTimeLow, Slice.read_write_of_apart hversion,
    Slice.read_write_of_apart hclock, Slice.read_write_of_apart htime]

/-- The version is the upper half of its octet. -/
theorem read_versionOctet : ((⟨72, 8⟩ : Slice).read u).toNat =
    (Slice.version.read u).toNat * 16 + ((⟨72, 4⟩ : Slice).read u).toNat := by
  have htile : Tile 80 [Slice.version, ⟨72, 4⟩] 72 := by decide
  have hread := Slice.read_of_tile (s := ⟨72, 8⟩) htile u
  rw [hread, gather_cons, Nat.shiftLeft_eq]
  simp [gather, totalWidth]

theorem versionOctet_withLocalId :
    UInt8.ofNat ((⟨72, 8⟩ : Slice).read (u.withLocalId d localId)).toNat =
      UInt8.ofNat ((⟨72, 8⟩ : Slice).read u).toNat % 16 + 0x20 := by
  obtain ⟨-, -, hversion⟩ := u.read_withLocalId d localId
  have hlow := u.read_withLocalId_of_apart d localId (s := ⟨72, 4⟩) (by decide) (by decide)
    (by decide)
  have htwo : Version.v2.number.toNat = 2 := by decide
  have hlt : ((⟨72, 4⟩ : Slice).read u).toNat < 16 := ((⟨72, 4⟩ : Slice).read u).isLt
  have hv : (Slice.version.read u).toNat < 16 := (Slice.version.read u).isLt
  refine UInt8.toNat_inj.1 ?_
  rw [read_versionOctet, read_versionOctet, hversion, hlow, htwo]
  simp
  omega

/-- The octets of a UUID, those of a longer field taken together. -/
theorem octets_eq : u.octets =
    Octets.ofNat 4 (Slice.timeLow.read u).toNat ++ Octets.ofNat 2 (Slice.timeMid.read u).toNat ++
      [.ofNat ((⟨72, 8⟩ : Slice).read u).toNat, .ofNat ((⟨64, 8⟩ : Slice).read u).toNat,
        .ofNat ((⟨56, 8⟩ : Slice).read u).toNat, .ofNat (Slice.clockLow.read u).toNat] ++
      Octets.ofNat 6 (Slice.node.read u).toNat := by
  have htile : Tile 128 [Slice.timeLow, Slice.timeMid, ⟨72, 8⟩, ⟨64, 8⟩, ⟨56, 8⟩, Slice.clockLow,
    Slice.node] 0 := by decide
  have hflat := octets_of_tile htile (by decide) u
  simp only [List.flatMap_cons, List.flatMap_nil, List.append_nil, Nat.reduceDiv,
    Octets.ofNat_one] at hflat
  rw [hflat]
  simp only [List.append_assoc, List.cons_append, List.nil_append]

/-- **The three replacements, told by octets.** -/
theorem octets_withLocalId :
    (u.withLocalId d localId).octets = u.octets.withLocalId d localId := by
  obtain ⟨htime, hclock, -⟩ := u.read_withLocalId d localId
  have hkept : ∀ s ∈ [Slice.timeMid, ⟨64, 8⟩, ⟨56, 8⟩, Slice.node],
      s.read (u.withLocalId d localId) = s.read u := by
    intro s hs
    have hapart : ∀ t ∈ [Slice.timeMid, ⟨64, 8⟩, ⟨56, 8⟩, Slice.node],
        t.Apart Slice.timeLow ∧ t.Apart Slice.clockLow ∧ t.Apart Slice.version := by decide
    obtain ⟨h1, h2, h3⟩ := hapart s hs
    exact u.read_withLocalId_of_apart d localId h1 h2 h3
  have hlist : ∀ (t m : Octets) (c x y z : UInt8) (n : Octets), t.length = 4 → m.length = 2 →
      (t ++ m ++ [c, x, y, z] ++ n).withLocalId d localId = Octets.ofNat 4 localId.toNat ++ m ++
        [c % 16 + 0x20, x, y, .ofNat d.number.toNat] ++ n := by
    intro t m c x y z n ht hm
    match t, m, ht, hm with
    | [_, _, _, _], [_, _], _, _ => rfl
  rw [octets_eq, octets_eq, hlist _ _ _ _ _ _ _ (Octets.length_ofNat 4 _) (Octets.length_ofNat 2 _),
    htime, hclock, versionOctet_withLocalId, hkept Slice.timeMid (by simp), hkept ⟨64, 8⟩ (by simp),
    hkept ⟨56, 8⟩ (by simp), hkept Slice.node (by simp)]

end Uuid

/-! ## Two layouts -/

/-- The last slice holds the least significant part. -/
theorem scatter_concat (ss : List Slice) (s : Slice) (u : Uuid) (n : ℕ) :
    scatter (ss ++ [s]) u n = s.write (scatter ss u (n >>> s.width)) (BitVec.ofNat s.width n) := by
  induction ss generalizing u with
  | nil => rfl
  | cons t ss ih =>
    have hwidth : totalWidth (ss ++ [s]) = s.width + totalWidth ss := by
      simp [totalWidth, Nat.add_comm]
    rw [List.cons_append, scatter, scatter, ih, hwidth, Nat.shiftRight_add]

namespace TimeStamp

variable (s : TimeStamp) (d : LocalDomain) (localId : BitVec 32) {n : ℕ}

/-- The UUID of version 2 with the upper part of a count, the upper part of a clock sequence, a node
id, a domain and a local id in their slices. -/
def dceLayOut (s : TimeStamp) (d : LocalDomain) (localId : BitVec 32) (n : ℕ) : Uuid :=
  (Slice.timeLow.write (Slice.clockLow.write (Slice.node.write (Slice.clockHi.write
    (scatter [Slice.timeHi, Slice.timeMid] Uuid.nil (n >>> 32))
    (BitVec.ofNat 6 (s.sequence.toNat / 256))) s.node) d.number) localId).stamp .v2 .rfc4122

theorem dceUuid_of_count (hn : TimeScale.gregorian.count? s.time = some n) :
    s.dceUuid d localId = .ok (s.dceLayOut d localId n) := by
  have hlayout : Layout.ofVersion .v2 = Layout.dceSecurity := rfl
  have hlt := s.sequence.isLt
  have hwidth : 1 <<< Slice.clockHi.width = 64 := rfl
  have hseq : s.sequence.toNat / 256 < 1 <<< Slice.clockHi.width := by omega
  have htime : Layout.dceSecurity.setTimestamp Uuid.nil s.time =
      .ok (scatter [Slice.timeHi, Slice.timeMid] Uuid.nil (n >>> 32)) := by
    simp only [Layout.setTimestamp, Layout.dceSecurity, TimeField.write, hn]
  have hclock : ∀ u, Layout.dceSecurity.setClockSequence u (s.sequence.toNat / 256) =
      .ok (Slice.clockHi.write u (BitVec.ofNat 6 (s.sequence.toNat / 256))) :=
    fun _ => if_pos hseq
  unfold dceUuid
  rw [hlayout]
  exact bind_eq_ok.2 ⟨_, htime, bind_eq_ok.2 ⟨_, hclock _, rfl⟩⟩

/-- **The three fields apart, the two layouts are the same.** -/
theorem dceLayOut_eq : s.dceLayOut d localId n = (s.layOut .v1 n).withLocalId d localId := by
  have htile : Tile 128 [Slice.timeLow, Slice.timeMid, Slice.version, Slice.timeHi,
    Variant.rfc4122.slice, Slice.clockHi, Slice.clockLow, Slice.node] 0 := by decide
  have htime : timeSlices .v1 = [Slice.timeHi, Slice.timeMid] ++ [Slice.timeLow] := rfl
  have hupper : BitVec.ofNat 6 (s.sequence.toNat / 256) = s.sequence.extractLsb' 8 6 := by
    refine BitVec.eq_of_toNat_eq ?_
    rw [BitVec.toNat_ofNat, BitVec.extractLsb'_toNat, Nat.shiftRight_eq_div_pow]
  have hclock : ∀ u : Uuid, Slice.clockHi.read (Slice.clockSequence.write u s.sequence) =
      s.sequence.extractLsb' 8 6 := by
    intro u
    exact Slice.read_write_within (s := Slice.clockHi) (t := Slice.clockSequence) (k := 8)
      (by decide) rfl (by decide) u s.sequence
  refine Uuid.eq_of_tile htile ?_
  unfold dceLayOut layOut Uuid.withLocalId Uuid.setTimeLow Uuid.setClockLow
  simp (disch := decide) only [htime, scatter_concat, hupper, hclock, Uuid.stamp,
    Uuid.withVariant_eq_write, Uuid.withVersion, List.forall_mem_cons, Slice.read_write,
    Slice.read_write_of_apart, List.not_mem_nil, false_implies, implies_true, and_self]

theorem uuid_of_count (hn : TimeScale.gregorian.count? s.time = some n) :
    s.uuid .v1 = .ok (s.layOut .v1 n) :=
  (uuid_eq_ok_iff (Or.inl rfl)).2 ⟨n, hn, rfl⟩

theorem uuid_of_count_eq_none (hn : TimeScale.gregorian.count? s.time = none) :
    s.uuid .v1 = .error
      (.outOfRange (.timestamp TimeScale.gregorian.first TimeScale.gregorian.last)) := by
  have hlayout : Layout.ofVersion .v1 = Layout.gregorian := rfl
  unfold uuid Layout.setTimestamp TimeField.write
  simp only [hlayout, Layout.gregorian, hn]
  rfl

theorem dceUuid_of_count_eq_none (hn : TimeScale.gregorian.count? s.time = none) :
    s.dceUuid d localId = .error
      (.outOfRange (.timestamp TimeScale.gregorian.first TimeScale.gregorian.last)) := by
  have hlayout : Layout.ofVersion .v2 = Layout.dceSecurity := rfl
  unfold dceUuid Layout.setTimestamp TimeField.write
  simp only [hlayout, Layout.dceSecurity, hn]
  rfl

/-- **A stamp has a UUID of version 2 exactly if it has one of version 1**, and the two differ in
the local id, its domain and the version alone. -/
theorem dceUuid_eq :
    s.dceUuid d localId = (s.uuid .v1).map (·.withLocalId d localId) := by
  cases hn : TimeScale.gregorian.count? s.time with
  | none =>
    rw [s.uuid_of_count_eq_none hn, s.dceUuid_of_count_eq_none d localId hn]
    rfl
  | some n =>
    rw [s.uuid_of_count hn, s.dceUuid_of_count d localId hn, dceLayOut_eq]
    rfl

/-- **No UUID of version 1** has a time off the Gregorian scale, and nothing else is refused. -/
theorem uuid_eq_error_iff {e : Error} : s.uuid .v1 = .error e ↔
    TimeScale.gregorian.count? s.time = none ∧
      e = .outOfRange (.timestamp TimeScale.gregorian.first TimeScale.gregorian.last) := by
  cases hn : TimeScale.gregorian.count? s.time with
  | none =>
    rw [s.uuid_of_count_eq_none hn, Except.error.injEq, eq_comm]
    simp
  | some n =>
    rw [s.uuid_of_count hn]
    simp

end TimeStamp

/-! ## Generators -/

namespace LocalIdSource

/-- **The local id** is the given one, else the user's for persons, the group's for groups, and zero
for all other domains. -/
theorem lookup_spec (ids : LocalIdSource) (h : Host) (d : LocalDomain) :
    (∀ n, ids.lookup h d (some n) = .ok n) ∧
      (d = .person → ids.lookup h d none = ids.user h) ∧
      (d = .group → ids.lookup h d none = ids.group h) ∧
      (d ≠ .person → d ≠ .group → ids.lookup h d none = .ok 0) := by
  have hne : LocalDomain.group ≠ LocalDomain.person := by decide
  refine ⟨fun n => rfl, ?_, ?_, ?_⟩
  · intro hd
    exact if_pos hd
  · rintro rfl
    rw [lookup, if_neg hne, if_pos rfl]
  · intro hp hg
    exact (if_neg hp).trans (if_neg hg)

end LocalIdSource

namespace DceSecurity

/-- A generator of version 2 with readings of its own, for user 1000 in group 50. -/
def ofMember : DceSecurity where
  base := { version := .v1, source := .ofReadings fun _ => 0, nodes := some (.fixed 1)
            clock := .own (ClockState.new 0) }
  ids := .fixed (some 1000) (some 50)

end DceSecurity

end UuidForge
