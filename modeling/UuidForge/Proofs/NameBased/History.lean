import UuidForge.Generator.NameBased
import UuidForge.Proofs.Hash.History
import UuidForge.Proofs.Layout.Component

/-!
# Histories of a name-based generator

A name-based generator is its pool with a heading: the version, the hashspace, and whether it
belongs to all. So what it has answered before does not show in the UUID of a name, and generators
with one heading and one hash function agree.

* `Uuid.payload_stamp`: a stamp keeps all other bits.
* `digestUuid_spec`: **the UUID of a digest** has its version and variant, and all other bits of the
  digest.
* `NameBased.after_eq`: a history of a generator is a history of its pool.
* `NameBased.history_independent`: **the answers of pools and of generators after any history.**
-/

namespace UuidForge

namespace Uuid

theorem payload_of_agree {u v : Uuid} (h : ∀ s ∈ Layout.payload, s.read u = s.read v) :
    u.payload = v.payload := by
  have hraw := Layout.get_of_agree (c := .raw) (Layout.sound_ofVersion .empty) h
  exact Except.ok.inj hraw

/-- **A stamp keeps all bits** but those of the version and of the standard variant. -/
theorem payload_stamp (u : Uuid) (v : Version) : (u.stamp v .rfc4122).payload = u.payload := by
  have hapart : ∀ s ∈ Layout.payload, s.Apart Slice.version ∧ s.Apart Variant.rfc4122.slice := by
    decide
  apply payload_of_agree
  intro s hs
  exact u.read_stamp_of_apart v .rfc4122 (hapart s hs).1 (hapart s hs).2

theorem payload_setPayload (u x : Uuid) : (u.setPayload x).payload = x.payload := by
  have hlens := Layout.lens (c := .raw) (Layout.sound_ofVersion .empty) rfl
  exact Except.ok.inj (hlens.get_set u x _ rfl)

end Uuid

/-- **The UUID of a digest** has the version, the standard variant, and all other bits of the
digest. -/
theorem digestUuid_spec {v : Version} (hv : v.isNameBased) (digest : Octets) :
    ∃ u, digestUuid v digest = .ok u ∧ u.version = v ∧ u.variant = .rfc4122 ∧
      u.payload = (Uuid.ofOctets digest).payload := by
  have heq : digestUuid v digest =
      .ok ((Uuid.nil.setPayload (Uuid.ofOctets digest)).stamp v .rfc4122) := by
    have hcases : v = .v3 ∨ v = .v5 ∨ v = .v8 := by
      simpa [Version.isNameBased] using hv
    rcases hcases with rfl | rfl | rfl
    · rfl
    · rfl
    · rfl
  refine ⟨_, heq, Uuid.version_stamp .., Uuid.variant_stamp .., ?_⟩
  rw [Uuid.payload_stamp, Uuid.payload_setPayload]

/-- Versions that are not name-based have no room for a digest. -/
theorem isNameBased_of_digestUuid {v : Version} {digest : Octets} {u : Uuid}
    (h : digestUuid v digest = .ok u) : v.isNameBased := by
  have hroom : ∀ n : BitVec 4, Version.isNameBased ⟨n⟩ ∨
      (Layout.ofVersion ⟨n⟩).block (if (⟨n⟩ : Version) = .v8 then .custom else .hash) = [] := by
    decide
  obtain ⟨n⟩ := v
  rcases hroom n with hv | hnone
  · exact hv
  · obtain ⟨x, hx, -⟩ := bind_eq_ok.1 h
    rw [Layout.setData, Layout.dataMask, hnone] at hx
    cases hx

namespace HashAlgorithm

theorem isNameBased_version (a : HashAlgorithm) : a.version.isNameBased := by
  cases a <;> decide

theorem sixteen_le_size (a : HashAlgorithm) : 16 ≤ a.function.size := by
  cases a <;> decide

/-- Only algorithms of version 8 have a hashspace. -/
theorem version_of_hashspace {a : HashAlgorithm} {s : Uuid} (h : a.hashspace = some s) :
    a.version = .v8 := by
  cases a with
  | md5 => cases h
  | sha1 => cases h
  | _ => rfl

end HashAlgorithm

namespace NameBased

/-- A call to a generator. -/
inductive Call
  | named (space : Uuid) (name : Octets)
  | dispose
  deriving DecidableEq

/-- The generator after a call. -/
def call (g : NameBased) : Call → NameBased
  | .named space name => (g.ofName space name).2
  | .dispose => g.dispose

/-- **The generator after a history.** -/
def after (g : NameBased) (cs : List Call) : NameBased := cs.foldl call g

/-- The generator with room for a number of idle hashers, as it is before its first call. -/
def withRoom (g : NameBased) (capacity : ℕ) : NameBased :=
  { g with pool := .fresh g.pool.function capacity }

/-- What a call to a generator means to its pool. -/
def poolCall? (g : NameBased) : Call → Option HasherPool.Call
  | .named space name => some (.digest (g.parts space name))
  | .dispose => if g.isShared then none else some .dispose

variable {g : NameBased} {f : HashFunction} {d : Bool} {space : Uuid} {name : Octets}

/-- **A history of a generator is a history of its pool.** -/
theorem after_eq (g : NameBased) (cs : List Call) :
    g.after cs = { g with pool := g.pool.after (cs.filterMap g.poolCall?) } := by
  induction cs generalizing g with
  | nil => rfl
  | cons c cs ih =>
    have hstep : g.after (c :: cs) = (g.call c).after cs := rfl
    rw [hstep, ih]
    cases c with
    | named space name => rfl
    | dispose =>
      by_cases hs : g.isShared
      · have hcall : g.call .dispose = g := by
          rw [call, dispose, if_pos hs]
        have hnone : g.poolCall? .dispose = none := by
          rw [poolCall?, if_pos hs]
        rw [hcall, List.filterMap_cons_none hnone]
      · have hcall : g.call .dispose = { g with pool := g.pool.dispose } := by
          rw [call, dispose, if_neg hs]
        have hsome : g.poolCall? .dispose = some .dispose := by
          rw [poolCall?, if_neg hs]
        rw [hcall, List.filterMap_cons_some hsome]
        rfl

theorem dispose_mem_iff {cs : List Call} :
    HasherPool.Call.dispose ∈ cs.filterMap g.poolCall? ↔ g.isShared = false ∧ .dispose ∈ cs := by
  rw [List.mem_filterMap]
  constructor
  · rintro ⟨c, hc, hp⟩
    cases c with
    | named space name => cases hp
    | dispose =>
      cases hs : g.isShared with
      | true => simp [poolCall?, hs] at hp
      | false => exact ⟨rfl, hc⟩
  · rintro ⟨hs, hc⟩
    exact ⟨.dispose, hc, by simp [poolCall?, hs]⟩

/-- **The answer of a generator after any history.** -/
theorem ofName_after (g : NameBased) (capacity : ℕ) (cs : List Call) (space : Uuid)
    (name : Octets) :
    (((g.withRoom capacity).after cs).ofName space name).1 =
      (HasherPool.expected g.pool.function (!g.isShared && decide (.dispose ∈ cs))
        (g.parts space name)).bind (digestUuid g.version) := by
  have hdis : decide (HasherPool.Call.dispose ∈ cs.filterMap (g.withRoom capacity).poolCall?) =
      (!g.isShared && decide (.dispose ∈ cs)) := by
    rw [Bool.eq_iff_iff, decide_eq_true_iff, dispose_mem_iff]
    simp [withRoom]
  have hpool := HasherPool.digest_after g.pool.function capacity
    (cs.filterMap (g.withRoom capacity).poolCall?) (g.parts space name)
  rw [hdis] at hpool
  rw [after_eq, ← hpool]
  rfl

/-- A generator hashes with an algorithm, under its version and its hashspace. -/
structure IsFor (g : NameBased) (a : HashAlgorithm) : Prop where
  version : g.version = a.version
  hashspace : g.hashspace = a.hashspace
  function : g.pool.function = a.function

/-- What an algorithm hashes for a name. -/
def message (a : HashAlgorithm) (space : Uuid) (name : Octets) : Octets :=
  a.hashspace.elim [] Uuid.octets ++ space.octets ++ name

theorem flatten_parts {a : HashAlgorithm} (hg : g.IsFor a) :
    (g.parts space name).flatten = message a space name := by
  rw [parts, hg.hashspace, message]
  cases a.hashspace <;> simp

/-- Generators for one algorithm have one answer, unless they were disposed of. -/
theorem ofName_after_of_isFor {a : HashAlgorithm} {u : Uuid} (hg : g.IsFor a)
    (hu : digestUuid a.version (HasherPool.head a.function (message a space name)) = .ok u)
    (capacity : ℕ) (cs : List Call) :
    (((g.withRoom capacity).after cs).ofName space name).1 =
      if !g.isShared && decide (.dispose ∈ cs) then .error .disposed else .ok u := by
  have hsize : ¬ a.function.size < 16 := Nat.not_lt.2 a.sixteen_le_size
  rw [ofName_after, HasherPool.expected, flatten_parts hg, hg.function, hg.version, if_neg hsize]
  split
  · rfl
  · exact hu

/-- **The answers of pools and of generators after any history.** A pool gives the first 16 octets
of the hash of the joined parts, or the refusal of a short hash function, until it is disposed of.
So for every algorithm, namespace and name there is one UUID, that of the digest with only the
version and the two bits of the variant replaced, that all generators of the algorithm answer with:
the one that belongs to all after every history, the others until they are disposed of. -/
theorem history_independent :
    (∀ (f : HashFunction) (capacity : ℕ) (cs : List HasherPool.Call) (parts : List Octets),
      (((HasherPool.fresh f capacity).after cs).digest parts).1 =
        if .dispose ∈ cs then .error .disposed
        else if f.size < 16 then .error (.invalidOperation .shortDigest)
        else .ok ((f.digest parts.flatten.toArray).toList.take 16)) ∧
    ∀ (a : HashAlgorithm) (space : Uuid) (name : Octets), ∃ u : Uuid,
      u.version = a.version ∧ u.variant = .rfc4122 ∧
      u.payload = (Uuid.ofOctets (HasherPool.head a.function
        (a.hashspace.elim [] Uuid.octets ++ space.octets ++ name))).payload ∧
      ∀ (capacity : ℕ) (cs : List Call),
        ((((shared a).withRoom capacity).after cs).ofName space name).1 = .ok u ∧
        ((((ofAlgorithm a).withRoom capacity).after cs).ofName space name).1 =
          (if .dispose ∈ cs then .error .disposed else .ok u) ∧
        ∀ s, a.hashspace = some s →
          ((((ofFunction s a.function).withRoom capacity).after cs).ofName space name).1 =
            if .dispose ∈ cs then .error .disposed else .ok u := by
  constructor
  · intro f capacity cs parts
    rw [HasherPool.digest_after, HasherPool.expected, HasherPool.head]
    simp only [decide_eq_true_eq]
  · intro a space name
    obtain ⟨u, hu, hversion, hvariant, hpayload⟩ := digestUuid_spec a.isNameBased_version
      (HasherPool.head a.function (message a space name))
    refine ⟨u, hversion, hvariant, hpayload, fun capacity cs => ⟨?_, ?_, fun s hs => ?_⟩⟩
    · exact ofName_after_of_isFor (g := shared a) ⟨rfl, rfl, rfl⟩ hu capacity cs
    · have hown := ofName_after_of_isFor (g := ofAlgorithm a) ⟨rfl, rfl, rfl⟩ hu capacity cs
      simpa [ofAlgorithm] using hown
    · have hfor : (ofFunction s a.function).IsFor a :=
        ⟨(HashAlgorithm.version_of_hashspace hs).symm, hs.symm, rfl⟩
      have hown := ofName_after_of_isFor hfor hu capacity cs
      simpa [ofFunction] using hown

/-- The name `www.example.com`. -/
def exampleName : Octets :=
  [119, 119, 119, 46, 101, 120, 97, 109, 112, 108, 101, 46, 99, 111, 109]

/-- With SHA-256, generators with other histories agree on a name, until one is disposed of. -/
theorem history_independent_sha256 :
    ((((shared .sha256).withRoom 2).after [.dispose]).ofName Uuid.namespaceDns exampleName).1 =
        .ok ⟨0x401835fda627870a873fed73f2bc5b2c⟩ ∧
      ((((ofFunction ⟨0x3fb32780953c44649cfde85dbbe9843d⟩ HashAlgorithm.sha256.function).withRoom
        4).after [.named Uuid.nil []]).ofName Uuid.namespaceDns exampleName).1 =
        .ok ⟨0x401835fda627870a873fed73f2bc5b2c⟩ ∧
      ((((ofFunction ⟨0x3fb32780953c44649cfde85dbbe9843d⟩ HashAlgorithm.sha256.function).withRoom
        4).after [.dispose]).ofName Uuid.namespaceDns exampleName).1 = .error .disposed := by
  obtain ⟨u, -, -, -, h⟩ := history_independent.2 .sha256 Uuid.namespaceDns exampleName
  have hfirst : ((((shared .sha256).withRoom 2).after []).ofName Uuid.namespaceDns
      exampleName).1.toOption = some ⟨0x401835fda627870a873fed73f2bc5b2c⟩ := by
    decide +kernel
  rw [(h 2 []).1] at hfirst
  obtain rfl : u = ⟨0x401835fda627870a873fed73f2bc5b2c⟩ := Option.some.inj hfirst
  exact ⟨(h 2 [.dispose]).1, (h 4 [.named Uuid.nil []]).2.2 _ rfl, (h 4 [.dispose]).2.2 _ rfl⟩

end NameBased

end UuidForge
