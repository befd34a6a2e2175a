import UuidForge.Proofs.Files.Names
import UuidForge.Proofs.Node.Address

/-!
# What a directory shows

A directory shows an interface if its file `address` spells a hardware address between white space.
What the other two files say, or that they are missing, only tells what kind of interface it is.

* `FileTree.Shows`: what it takes to show an interface, told by the files.
* `Interface.ofDirectory?_eq_some_iff`: **what is read from a directory is what it shows.**
* `Interface.shows_congr`: directories with the same files show the same.
-/

namespace UuidForge

/-- A file holds a text in UTF-8, which is this one between white space. -/
def FileTree.Reads (t : FileTree) (place : NamePath) (cs : List Char) : Prop :=
  ∃ s : String, (place, .file (Octets.ofText s)) ∈ t.entries ∧ Text.Trims s.toList cs

/-- **A directory shows an address.** -/
def FileTree.ShowsAddress (t : FileTree) (directory : NamePath) (n : NodeId) : Prop :=
  ∃ cs, t.Reads (directory ++ ["address"]) cs ∧ n.IsSpelledBy cs

/-- A directory states the type of its interface: a decimal number of 32 bits. -/
def FileTree.StatesKind (t : FileTree) (directory : NamePath) (kind : ℕ) : Prop :=
  ∃ cs, t.Reads (directory ++ ["type"]) cs ∧ Text.Spells 10 cs kind ∧ kind < 2 ^ 32

/-- The type of an interface, which is zero unless it is stated. -/
def FileTree.HasKind (t : FileTree) (directory : NamePath) (kind : ℕ) : Prop :=
  t.StatesKind directory kind ∨ (∀ k, ¬ t.StatesKind directory k) ∧ kind = 0

/-- **A directory shows an interface.** -/
structure FileTree.Shows (t : FileTree) (directory : NamePath) (i : Interface) : Prop where
  address : t.ShowsAddress directory i.address
  isUp : i.isUp ↔ t.Reads (directory ++ ["operstate"]) "up".toList
  kind : ∃ kind, t.HasKind directory kind ∧ (i.isLoopback ↔ kind = 772) ∧
    (i.isTunnel ↔ kind ∈ [768, 769, 776, 778, 823, 65534])

namespace Interface

variable {t u : FileTree} {directory : NamePath} {name : String} {cs : List Char} {i : Interface}
  {n : NodeId} {kind : ℕ}

/-! ## The three files -/

theorem trimmed?_eq_some_iff (ht : t.Distinct) (hn : name ≠ "..") :
    trimmed? t (directory ++ [name]) = some cs ↔ t.Reads (directory ++ [name]) cs := by
  unfold trimmed? FileTree.Reads
  simp only [Option.map_eq_some_iff, FileTree.text?_eq_some_iff ht hn, Text.trim_eq_iff]

theorem address_eq_some_iff (ht : t.Distinct) :
    (trimmed? t (directory ++ ["address"])).bind address? = some n ↔
      t.ShowsAddress directory n := by
  have hfile : ∀ cs, trimmed? t (directory ++ ["address"]) = some cs ↔
      t.Reads (directory ++ ["address"]) cs := fun cs => trimmed?_eq_some_iff ht (by decide)
  simp only [Option.bind_eq_some_iff, hfile, address?_eq_some_iff, FileTree.ShowsAddress]

theorem kind_eq_iff (ht : t.Distinct) :
    ((trimmed? t (directory ++ ["type"])).bind (Text.number? 10 0x100000000)).getD 0 = kind ↔
      t.HasKind directory kind := by
  have hstates : ∀ k, (trimmed? t (directory ++ ["type"])).bind (Text.number? 10 0x100000000) =
      some k ↔ t.StatesKind directory k := by
    intro k
    have hfile : ∀ cs, trimmed? t (directory ++ ["type"]) = some cs ↔
        t.Reads (directory ++ ["type"]) cs := fun cs => trimmed?_eq_some_iff ht (by decide)
    simp only [Option.bind_eq_some_iff, hfile, Text.number?_eq_some_iff, FileTree.StatesKind]
    rfl
  unfold FileTree.HasKind
  simp only [← hstates]
  cases (trimmed? t (directory ++ ["type"])).bind (Text.number? 10 0x100000000) with
  | none => simp [eq_comm]
  | some k => simp

/-- The interface with an address and what the other two files say. -/
def describe (t : FileTree) (directory : NamePath) (address : NodeId) : Interface :=
  let kind := ((trimmed? t (directory ++ ["type"])).bind (Text.number? 10 0x100000000)).getD 0
  { address
    isUp := trimmed? t (directory ++ ["operstate"]) = some "up".toList
    isLoopback := kind = loopbackType
    isTunnel := tunnelTypes.contains kind }

theorem ofDirectory?_eq (t : FileTree) (directory : NamePath) : ofDirectory? t directory =
    ((trimmed? t (directory ++ ["address"])).bind address?).map (describe t directory) := by
  unfold ofDirectory?
  cases trimmed? t (directory ++ ["address"]) with
  | none => rfl
  | some cs =>
    show (address? cs).bind _ = (address? cs).map _
    cases address? cs with
    | none => rfl
    | some n => rfl

theorem describe_eq_iff (ht : t.Distinct) : describe t directory i.address = i ↔
    (i.isUp ↔ t.Reads (directory ++ ["operstate"]) "up".toList) ∧
      ∃ kind, t.HasKind directory kind ∧ (i.isLoopback ↔ kind = 772) ∧
        (i.isTunnel ↔ kind ∈ [768, 769, 776, 778, 823, 65534]) := by
  have hup : trimmed? t (directory ++ ["operstate"]) = some "up".toList ↔
      t.Reads (directory ++ ["operstate"]) "up".toList := trimmed?_eq_some_iff ht (by decide)
  simp only [← kind_eq_iff ht, exists_eq_left', ← hup]
  have hflag : ∀ {b c : Bool} {P : Prop}, (b = true ↔ P) → (b = c ↔ (c = true ↔ P)) := by
    intro b c P hb
    rw [Bool.eq_iff_iff, hb]
    exact Iff.comm
  cases i with
  | mk address isUp isLoopback isTunnel =>
    simp only [describe, mk.injEq, true_and]
    exact and_congr (hflag decide_eq_true_iff)
      (and_congr (hflag decide_eq_true_iff) (hflag List.contains_iff_mem))

/-- **What a directory shows.** -/
theorem ofDirectory?_eq_some_iff (ht : t.Distinct) :
    ofDirectory? t directory = some i ↔ t.Shows directory i := by
  rw [ofDirectory?_eq, Option.map_eq_some_iff]
  simp only [address_eq_some_iff ht]
  constructor
  · rintro ⟨n, hn, hi⟩
    have haddress : i.address = n := by rw [← hi, describe]
    rw [← haddress] at hn hi
    obtain ⟨hup, hkind⟩ := (describe_eq_iff ht).1 hi
    exact ⟨hn, hup, hkind⟩
  · rintro ⟨haddress, hup, hkind⟩
    exact ⟨i.address, haddress, (describe_eq_iff ht).2 ⟨hup, hkind⟩⟩

/-! ## Directories with the same files -/

section Congr

variable (h : ∀ file node,
  (directory ++ [file], node) ∈ t.entries ↔ (directory ++ [file], node) ∈ u.entries)

include h

theorem reads_congr (file : String) (cs : List Char) :
    t.Reads (directory ++ [file]) cs ↔ u.Reads (directory ++ [file]) cs := by
  unfold FileTree.Reads
  simp only [h]

theorem showsAddress_congr (n : NodeId) :
    t.ShowsAddress directory n ↔ u.ShowsAddress directory n := by
  unfold FileTree.ShowsAddress
  simp only [reads_congr h]

theorem hasKind_congr (kind : ℕ) : t.HasKind directory kind ↔ u.HasKind directory kind := by
  unfold FileTree.HasKind FileTree.StatesKind
  simp only [reads_congr h]

/-- **Directories with the same files show the same.** -/
theorem shows_congr (i : Interface) : t.Shows directory i ↔ u.Shows directory i := by
  constructor
  · rintro ⟨hn, hup, hkind⟩
    simp only [reads_congr h, showsAddress_congr h, hasKind_congr h] at hn hup hkind
    exact ⟨hn, hup, hkind⟩
  · rintro ⟨hn, hup, hkind⟩
    simp only [← reads_congr h, ← showsAddress_congr h, ← hasKind_congr h] at hn hup hkind
    exact ⟨hn, hup, hkind⟩

end Congr

end Interface

end UuidForge
