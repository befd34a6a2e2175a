import UuidForge.Proofs.Generator.Declared
import UuidForge.Proofs.Pool.Serve

/-!
# What pools declare

A pool declares what its first member declares, and lets no member of another kind answer. So what
holds of the UUIDs of its members holds of those of the pool, those of errands among them.

* `Pool.InUse`: a pool that was asked and disposed of.
* `Pool.Sound`: what calls keep true of a pool.
* `Pool.serve_spec`: **a call keeps a pool sound, and its UUID comes from a member of its kind.**
* `Pool.declared_is_carried`: **every UUID carries what its generator or its pool declares**, and
  has all other bits from entropy, a digest or a fill.
-/

namespace UuidForge

/-- A member has a generator in use that declares a version and a variant. -/
structure PoolMember.Declares (m : PoolMember) (v : Version) (w : Variant) : Prop where
  inUse : m.generator.InUse
  version : m.generator.version = v
  variant : m.generator.variant = w

/-- A UUID comes from a generator in use that declares a version and a variant. -/
def Generator.Answers (v : Version) (w : Variant) (q : Request) (u : Uuid) : Prop :=
  ∃ (g : Generator) (h : Host), g.InUse ∧ g.version = v ∧ g.variant = w ∧
    (g.answer q h).1.1 = .ok u

variable {m : PoolMember} {v : Version} {w : Variant} {q : Request} {h : Host} {u : Uuid}

/-- A member declares after a call what it declared before. -/
theorem PoolMember.Declares.answer (hm : m.Declares v w) (q : Request) (h : Host) :
    (m.answer q h).1.2.Declares v w := by
  obtain ⟨h', -, hg⟩ := m.answer_spec q h
  constructor
  · rw [hg]
    exact hm.inUse.answer q h'
  · rw [hg]
    exact (Generator.version_answer _ q h').trans hm.version
  · rw [hg]
    exact (Generator.variant_answer _ q h').trans hm.variant

theorem PoolMember.Declares.answers (hm : m.Declares v w) (hu : (m.answer q h).1.1 = .ok u) :
    Generator.Answers v w q u := by
  obtain ⟨h', hr, -⟩ := m.answer_spec q h
  exact ⟨m.generator, h', hm.inUse, hm.version, hm.variant, hr.symm.trans hu⟩

theorem Generator.Answers.carries (ha : Generator.Answers v w q u) : u.Carries v w := by
  obtain ⟨g, h, hg, rfl, rfl, hu⟩ := ha
  exact carries_of_answer hg.ready hu

namespace Pool

/-- **A pool in use**: a pool over generators in use that was asked, with any errands, and disposed
of. -/
inductive InUse : Pool → Prop
  | created {factory : MemberFactory} {capacity : ℕ} {h : Host} {p : Pool}
      (hf : ∀ n h, (factory n h).1.1.InUse) (hp : (create factory capacity h).1 = .ok p) : InUse p
  | served {p : Pool} (waiting : List Errand) (q : Request) (h : Host) :
      InUse p → InUse (p.serve waiting q h).1.2.2
  | disposed {p : Pool} : InUse p → InUse p.dispose

/-- **What calls keep true of a pool**: its members are of its kind, and so is every UUID that an
errand was given. -/
structure Sound (p : Pool) (v : Version) (w : Variant) : Prop where
  version : p.version = v
  variant : p.variant = w
  factory : ∀ n h, (p.factory n h).1.1.InUse
  idle : ∀ m ∈ p.idle, m.Declares v w
  nested : ∀ u, .nested (.ok u) ∈ p.journal → u.Carries v w

variable {p : Pool}

theorem Sound.note (hp : p.Sound v w) {e : PoolEvent}
    (he : ∀ u, e = .nested (.ok u) → u.Carries v w) : (p.note e).Sound v w where
  version := hp.version
  variant := hp.variant
  factory := hp.factory
  idle := hp.idle
  nested u hu := by
    rcases List.mem_append.1 hu with hu | hu
    · exact hp.nested u hu
    · exact he u (List.mem_singleton.1 hu).symm

theorem Sound.dispose (hp : p.Sound v w) : p.dispose.Sound v w where
  version := hp.version
  variant := hp.variant
  factory := hp.factory
  idle m hm := by cases hm
  nested u hu := by
    rcases List.mem_append.1 hu with hu | hu
    · exact hp.nested u hu
    · obtain ⟨m, -, he⟩ := List.mem_map.1 hu
      cases he

/-- A member that comes back is of the kind of the pool. -/
theorem Sound.checkIn (hp : p.Sound v w) (hm : m.Declares v w) : (p.checkIn m).Sound v w := by
  unfold Pool.checkIn
  split
  · exact hp.note fun u he => by cases he
  · refine { hp with idle := ?_ }
    intro x hx
    rcases List.mem_append.1 hx with hx | hx
    · exact hp.idle x hx
    · rw [List.mem_singleton.1 hx]
      exact hm

/-- **A member that is taken out** is of the kind of the pool. -/
theorem Sound.checkOut (hp : p.Sound v w) (h : Host) :
    (p.checkOut h).1.2.Sound v w ∧ ∀ m, (p.checkOut h).1.1 = .ok m → m.Declares v w := by
  cases hd : p.isDisposed with
  | true =>
    rw [checkOut_of_disposed hd]
    exact ⟨hp, fun m hm => by cases hm⟩
  | false =>
    cases hi : p.idle with
    | cons m idle =>
      rw [checkOut_of_idle hd hi]
      have hidle : ∀ x ∈ idle, x.Declares v w := by
        intro x hx
        exact hp.idle x (by rw [hi]; exact List.mem_cons_of_mem m hx)
      refine ⟨{ hp with idle := hidle }, fun x hx => ?_⟩
      cases hx
      exact hp.idle m (by rw [hi]; exact List.mem_cons_self)
    | nil =>
      have hmade : (p.make h).1.2.Sound v w := by
        have hnew : { p with made := p.made + 1 }.Sound v w := { hp with }
        exact hnew.note fun u he => by cases he
      rw [checkOut_of_no_idle hd hi]
      cases ha : p.accepts (p.make h).1.1 with
      | true =>
        refine ⟨hmade, fun x hx => ?_⟩
        cases hx
        obtain ⟨hv, hw⟩ := Bool.and_eq_true_iff.1 ha
        exact ⟨hp.factory _ _, (of_decide_eq_true hv).trans hp.version,
          (of_decide_eq_true hw).trans hp.variant⟩
      | false =>
        refine ⟨hmade.note ?_, ?_⟩
        · intro u he
          cases he
        · intro x hx
          cases hx

/-- A call whose errand keeps the pool sound. -/
theorem serve_of_errand {waiting : List Errand}
    (he : ∀ (p : Pool) h, p.Sound v w → (p.errand waiting h).1.2.Sound v w) (hp : p.Sound v w)
    (q : Request) (h : Host) :
    (p.serve waiting q h).1.2.2.Sound v w ∧
      ∀ u, (p.serve waiting q h).1.1 = .ok u → Generator.Answers v w q u := by
  obtain ⟨hout, hmember⟩ := hp.checkOut h
  rcases p.serve_cases waiting q h with
    ⟨e, p', h', hc, hs⟩ | ⟨m, p', h', rest, p'', h'', hc, hr, hs⟩
  · rw [hs]
    rw [hc] at hout
    refine ⟨hout, fun u hu => ?_⟩
    cases hu
  · rw [hs]
    rw [hc] at hout hmember
    have hm : m.Declares v w := hmember m rfl
    have hp'' : p''.Sound v w := by
      have hkept := he p' h' hout
      rwa [hr] at hkept
    exact ⟨hp''.checkIn (hm.answer q h''), fun u hu => hm.answers hu⟩

/-- **Errands keep a pool sound.** -/
theorem Sound.errand (waiting : List Errand) (hp : p.Sound v w) (h : Host) :
    (p.errand waiting h).1.2.Sound v w := by
  -- on the errands, since one that asks the pool leaves the rest to the call it makes
  induction waiting generalizing p h with
  | nil => exact hp
  | cons e rest ih =>
    cases e with
    | fresh =>
      obtain ⟨hkept, hu⟩ := serve_of_errand (fun p h hp => ih hp h) hp .fresh h
      refine hkept.note fun u he => (hu u ?_).carries
      exact PoolEvent.nested.inj he
    | dispose =>
      refine hp.dispose.note fun u he => ?_
      cases he
    | count =>
      refine hp.note fun u he => ?_
      cases he

/-- **A call keeps a pool sound**, and its UUID comes from a member of the kind of the pool. -/
theorem serve_spec (hp : p.Sound v w) (waiting : List Errand) (q : Request) (h : Host) :
    (p.serve waiting q h).1.2.2.Sound v w ∧
      ∀ u, (p.serve waiting q h).1.1 = .ok u → Generator.Answers v w q u :=
  serve_of_errand (fun _ h hp => hp.errand waiting h) hp q h

/-- A new pool is of the kind of its first member. -/
theorem sound_of_create {factory : MemberFactory} {capacity : ℕ}
    (hf : ∀ n h, (factory n h).1.1.InUse) (hp : (create factory capacity h).1 = .ok p) :
    p.Sound p.version p.variant := by
  unfold create at hp
  split at hp
  · cases hp
  · cases hp
    refine ⟨rfl, rfl, hf, ?_, ?_⟩
    · intro m hm
      rw [List.mem_singleton.1 hm]
      exact ⟨hf 0 h, rfl, rfl⟩
    · intro u hu
      cases List.mem_singleton.1 hu

/-- **A pool in use is sound** for what it declares. -/
theorem InUse.sound (hp : p.InUse) : p.Sound p.version p.variant := by
  have hkind : ∃ v w, p.Sound v w := by
    induction hp with
    | created hf hp => exact ⟨_, _, sound_of_create hf hp⟩
    | served waiting q h _ ih =>
      obtain ⟨v, w, hs⟩ := ih
      exact ⟨v, w, (serve_spec hs waiting q h).1⟩
    | disposed _ ih =>
      obtain ⟨v, w, hs⟩ := ih
      exact ⟨v, w, hs.dispose⟩
  obtain ⟨v, w, hs⟩ := hkind
  rw [hs.version, hs.variant]
  exact hs

/-- **UUIDs carry what was declared.** For every generator and every pool in use, on every host and
for every request: a UUID has the version and the variant of its generator or its pool, read from
the UUID itself or through any layout, and so has a UUID that an errand was given. Its other bits
are the octets drawn for it, the head of the digest of a name or what a fill has left. -/
theorem declared_is_carried :
    (∀ (g : Generator) (q : Request) (h : Host) (u : Uuid), g.InUse →
      (g.answer q h).1.1 = .ok u → u.Carries g.version g.variant ∧ g.MadeOf q h u) ∧
    ∀ p : Pool, p.InUse →
      (∀ u, .nested (.ok u) ∈ p.journal → u.Carries p.version p.variant) ∧
      ∀ waiting q h u, (p.serve waiting q h).1.1 = .ok u →
        u.Carries p.version p.variant ∧ ∃ (g : Generator) (h' : Host), g.InUse ∧
          g.version = p.version ∧ g.variant = p.variant ∧
          (g.answer q h').1.1 = .ok u ∧ g.MadeOf q h' u := by
  constructor
  · intro g q h u hg hu
    exact ⟨Generator.carries_of_answer hg.ready hu, Generator.madeOf_of_answer hg.ready hu⟩
  · intro p hp
    refine ⟨hp.sound.nested, fun waiting q h u hu => ?_⟩
    have hanswers := (serve_spec hp.sound waiting q h).2 u hu
    refine ⟨hanswers.carries, ?_⟩
    obtain ⟨g, h', hg, hv, hw, hu⟩ := hanswers
    exact ⟨g, h', hg, hv, hw, hu, Generator.madeOf_of_answer hg.ready hu⟩

/-! ## A fill that sets all bits -/

/-- A generator whose fill sets all bits. -/
def allOnes : Generator := .custom { epoch := 0, nodes := none, fill := .ones }

/-- A new pool over such generators. -/
def onesPool : Pool where
  factory _ := pure (allOnes, none)
  capacity := 1
  version := .v8
  variant := .rfc4122
  requiresInput := false
  idle := [⟨0, allOnes, none⟩]
  made := 1
  journal := [.created 0]

/-- All ones under version and variant. -/
def stampedOnes : Uuid := ⟨0xffffffffffff8fffbfffffffffffffff⟩

/-- Version and variant are stamped over the fill, by a generator and by a pool that is disposed of
while its member is out. -/
theorem declared_is_carried_ones :
    stampedOnes.Carries .v8 .rfc4122 ∧ allOnes.MadeOf .fresh blankHost stampedOnes ∧
      ∃ (g : Generator) (h : Host), g.version = .v8 ∧
        (g.answer .fresh h).1.1 = .ok stampedOnes := by
  have hin : allOnes.InUse := .of_isNew trivial
  have hcreate : (create (fun _ => pure (allOnes, none)) 1 blankHost).1 = .ok onesPool := rfl
  have hpool : onesPool.InUse := .created (fun _ _ => hin) hcreate
  have hone : (allOnes.answer .fresh blankHost).1.1 = .ok stampedOnes := rfl
  have htwo : (onesPool.serve [.dispose] .fresh blankHost).1.1 = .ok stampedOnes := by
    rw [serve_eq]
    rfl
  obtain ⟨hc, hm⟩ := declared_is_carried.1 allOnes .fresh blankHost stampedOnes hin hone
  obtain ⟨-, g, h, -, hv, -, hu, -⟩ :=
    (declared_is_carried.2 onesPool hpool).2 [.dispose] .fresh blankHost stampedOnes htwo
  exact ⟨hc, hm, g, h, hv, hu⟩

end Pool

end UuidForge
