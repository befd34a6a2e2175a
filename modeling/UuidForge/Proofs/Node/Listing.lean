import UuidForge.Proofs.Node.Directory
import UuidForge.Proofs.Node.Selection

/-!
# Which interfaces a tree shows

* `Interface.mem_shownNames`, `Interface.forall₂_listing`: one item for every directory that shows
  an interface, in the order of their names.
* `Interface.listing_eq_of_agreesBeside`: **directories that show nothing do not count**, nor does
  the order of the entries.
* `Interface.listing_exact`: **the interfaces of any tree**, and the address that is selected.
-/

namespace UuidForge

namespace Interface

variable {t u : FileTree} {p : NamePath} {name : String}

/-! ## What a tree shows -/

/-- The names in a directory that show an interface. -/
def shownNames (t : FileTree) (p : NamePath) : List String :=
  (t.names p).filter fun name => (ofDirectory? t (p ++ [name])).isSome

theorem mem_shownNames (ht : t.Distinct) : name ∈ shownNames t p ↔
    t.HasName p name ∧ ∃ n, t.ShowsAddress (p ++ [name]) n := by
  rw [shownNames, List.mem_filter, FileTree.mem_names, ofDirectory?_eq, Option.isSome_map,
    Option.isSome_iff_exists]
  simp only [address_eq_some_iff ht]

theorem forall₂_filterMap {α β : Type} {f : α → Option β} {xs : List α}
    (h : ∀ x ∈ xs, (f x).isSome) : List.Forall₂ (fun x y => f x = some y) xs (xs.filterMap f) := by
  induction xs with
  | nil => exact .nil
  | cons x xs ih =>
    obtain ⟨y, hy⟩ := Option.isSome_iff_exists.1 (h x List.mem_cons_self)
    rw [List.filterMap_cons_some hy]
    exact .cons hy (ih fun z hz => h z (List.mem_cons_of_mem x hz))

/-- What is passed over can be left out beforehand. -/
theorem listing_eq (t : FileTree) (p : NamePath) : listing t p =
    (shownNames t p).filterMap fun name => ofDirectory? t (p ++ [name]) := by
  have hpassed : ∀ name, (if (ofDirectory? t (p ++ [name])).isSome then ofDirectory? t (p ++ [name])
      else none) = ofDirectory? t (p ++ [name]) := by
    intro name
    cases ofDirectory? t (p ++ [name]) with
    | none => rfl
    | some i => rfl
  rw [shownNames, List.filterMap_filter]
  simp only [hpassed, listing]

/-- **Each item is what the directory of its name shows.** -/
theorem forall₂_listing (ht : t.Distinct) (p : NamePath) :
    List.Forall₂ (fun name i => t.Shows (p ++ [name]) i) (shownNames t p) (listing t p) := by
  rw [listing_eq]
  simp only [← ofDirectory?_eq_some_iff ht]
  exact forall₂_filterMap fun name hname => (List.mem_filter.1 hname).2

theorem pairwise_shownNames (ht : t.Distinct) (p : NamePath) :
    (shownNames t p).Pairwise fun a b => Octets.ofText a < Octets.ofText b :=
  (FileTree.pairwise_names ht p).filter _

/-! ## What does not count -/

/-- Names in the order of their octets are told by which they are. -/
theorem eq_of_pairwise_lt {names names' : List String}
    (h : names.Pairwise fun a b => Octets.ofText a < Octets.ofText b)
    (h' : names'.Pairwise fun a b => Octets.ofText a < Octets.ofText b)
    (hmem : ∀ name, name ∈ names ↔ name ∈ names') : names = names' := by
  have hnodup : ∀ {l : List String}, (l.Pairwise fun a b => Octets.ofText a < Octets.ofText b) →
      l.Nodup := by
    intro l hl
    refine hl.imp ?_
    rintro a b hlt rfl
    exact List.lt_irrefl _ hlt
  have hperm := (List.perm_ext_iff_of_nodup (hnodup h) (hnodup h')).2 hmem
  exact hperm.eq_of_pairwise (fun a b _ _ hab hba => absurd hba (List.lt_asymm hab)) h h'

/-- Trees that agree beside some names agree on what lies at any other name, and below it. -/
theorem mem_entries_of_agreesBeside {silent : String → Prop} (h : t.AgreesBeside u p silent)
    (hname : ¬ silent name) (rest : NamePath) (node : FileNode) :
    (p ++ [name] ++ rest, node) ∈ t.entries ↔ (p ++ [name] ++ rest, node) ∈ u.entries := by
  refine h _ fun other hother hbelow => hname ?_
  rw [List.append_assoc, List.prefix_append_right_inj, List.singleton_append,
    List.cons_prefix_cons] at hbelow
  rwa [← hbelow.1]

/-- **Directories that show nothing do not count**, nor does the order of the entries. -/
theorem listing_eq_of_agreesBeside (ht : t.Distinct) (hu : u.Distinct) {silent : String → Prop}
    (h : t.AgreesBeside u p silent)
    (hsilent : ∀ name, silent name → ∀ n, ¬ t.ShowsAddress (p ++ [name]) n ∧
      ¬ u.ShowsAddress (p ++ [name]) n) : listing t p = listing u p := by
  have hdirectory : ∀ name, ofDirectory? t (p ++ [name]) = ofDirectory? u (p ++ [name]) := by
    intro name
    refine Option.ext fun i => ?_
    rw [ofDirectory?_eq_some_iff ht, ofDirectory?_eq_some_iff hu]
    by_cases hname : silent name
    · have hnone := hsilent name hname i.address
      exact iff_of_false (fun hs => hnone.1 hs.address) fun hs => hnone.2 hs.address
    · exact shows_congr (fun file => mem_entries_of_agreesBeside h hname [file]) i
  have hnames : shownNames t p = shownNames u p := by
    refine eq_of_pairwise_lt (pairwise_shownNames ht p) (pairwise_shownNames hu p) fun name => ?_
    rw [mem_shownNames ht, mem_shownNames hu]
    by_cases hname : silent name
    · have hnone := hsilent name hname
      exact iff_of_false (fun ⟨_, n, hn⟩ => (hnone n).1 hn) fun ⟨_, n, hn⟩ => (hnone n).2 hn
    · have hentry := mem_entries_of_agreesBeside h hname
      refine and_congr (exists_congr fun node => ?_) (exists_congr fun n => ?_)
      · have hhere := hentry [] node
        rwa [List.append_nil] at hhere
      · exact showsAddress_congr (fun file => hentry [file]) n
  rw [listing_eq, listing_eq, hnames]
  simp only [hdirectory]

/-- **The interfaces of any tree, and the address that is selected.** There is one item for every
entry whose file `address` spells a hardware address, in the order of the octets of their names, and
it is what the directory shows. The order of the entries of the tree does not count, nor do entries
that show no address, which may come and go. The address of the first item that is up, neither
loopback nor tunnel, and not zero is selected, else that of the first one that is no loopback and
not zero, else none. So neither zero nor the address of a loopback interface is ever selected. -/
theorem listing_exact (t : FileTree) (p : NamePath) (ht : t.Distinct) :
    (∃ names : List String, (names.Pairwise fun a b => Octets.ofText a < Octets.ofText b) ∧
      (∀ name, name ∈ names ↔ t.HasName p name ∧ ∃ n, t.ShowsAddress (p ++ [name]) n) ∧
      List.Forall₂ (fun name i => t.Shows (p ++ [name]) i) names (listing t p)) ∧
    (∀ u : FileTree, t.entries.Perm u.entries → listing u p = listing t p) ∧
    (∀ (u : FileTree) (silent : String → Prop), u.Distinct → t.AgreesBeside u p silent →
      (∀ name, silent name → ∀ n, ¬ t.ShowsAddress (p ++ [name]) n ∧
        ¬ u.ShowsAddress (p ++ [name]) n) → listing u p = listing t p) ∧
    (∀ n, select? (listing t p) = some n ↔
      (∃ i, FirstWith Preferred (listing t p) i ∧ i.address = n) ∨
        (∀ i ∈ listing t p, ¬ i.Preferred) ∧
          ∃ i, FirstWith Usable (listing t p) i ∧ i.address = n) ∧
    (select? (listing t p) = none ↔ ∀ i ∈ listing t p, ¬ i.Usable) ∧
    ∀ n, select? (listing t p) = some n →
      n ≠ 0 ∧ ∃ i ∈ listing t p, i.address = n ∧ i.isLoopback = false := by
  refine ⟨⟨shownNames t p, pairwise_shownNames ht p, fun name => mem_shownNames ht,
    forall₂_listing ht p⟩, fun u hperm => ?_, fun u silent hu hagrees hsilent => ?_,
    fun n => select?_eq_some_iff, select?_eq_none_iff, fun n hn => ?_⟩
  · have hu : u.Distinct := (hperm.map Prod.fst).nodup_iff.1 ht
    have hagrees : t.AgreesBeside u p fun _ => False := fun e _ => hperm.mem_iff
    exact (listing_eq_of_agreesBeside ht hu hagrees nofun).symm
  · exact (listing_eq_of_agreesBeside ht hu hagrees hsilent).symm
  · obtain ⟨i, hi, haddress, hne, hloopback⟩ := usable_of_select? hn
    exact ⟨hne, i, hi, haddress, hloopback⟩

/-- A network device beside a directory without an address. -/
def deviceTree : FileTree where
  entries := [(["net"], .directory), (["net", "tun0"], .directory), (["net", "eth0"], .directory),
    (["net", "eth0", "address"], .file (Octets.ofText "00:1a:+2b:3C:04d:5e\n")),
    (["net", "eth0", "operstate"], .file (Octets.ofText "up\n"))]

/-- The tree may be listed from its end, and still gives its one address. -/
theorem listing_exact_device :
    select? (listing ⟨deviceTree.entries.reverse⟩ ["net"]) = some 0x001a2b3c4d5e := by
  have hnames : deviceTree.names ["net"] = ["eth0", "tun0"] := by
    simp [FileTree.names, deviceTree, List.mergeSort]
  obtain ⟨-, hperm, -⟩ := listing_exact deviceTree ["net"] (by decide)
  have hsame := hperm ⟨deviceTree.entries.reverse⟩ (List.reverse_perm _).symm
  rw [hsame, listing, hnames]
  decide +kernel

end Interface

end UuidForge
