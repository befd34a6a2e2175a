import UuidForge.Files.Tree

/-!
# Laws of file trees

* `find?_put_self`, `find?_put_of_ne`: a change at one place is a change there alone.
* `Keeps`: a change after which every walk still ends where it did.
* `load_store`: **what was stored at a path is loaded from that path.**
* `store_again`: storing the same once more changes nothing.
* `load_of_store_false`: a store that fails changes no file.
-/

namespace UuidForge

theorem PathStep.ofPart_eq_down {part name : String} (h : ofPart part = .down name) :
    part = name ∧ name ≠ ".." := by
  unfold ofPart at h
  split at h
  · cases h
  · split at h
    · cases h
    · rename_i hne
      cases h
      exact ⟨rfl, hne⟩

namespace WrittenPath

/-- Nothing but steps that lead nowhere is trimmed. -/
theorem trimEnd_append (parts : List String) :
    ∃ idle, parts = trimEnd parts ++ idle ∧ ∀ x ∈ idle, PathStep.ofPart x = .stay := by
  induction parts with
  | nil => exact ⟨[], rfl, by simp⟩
  | cons part parts ih =>
    obtain ⟨idle, hp, hi⟩ := ih
    unfold trimEnd at hp ⊢
    rw [List.foldr_cons]
    split
    · rename_i h
      refine ⟨part :: idle, ?_, ?_⟩
      · rw [h.1] at hp
        simpa using hp
      · intro x hx
        rcases List.mem_cons.1 hx with rfl | hx
        · exact h.2
        · exact hi x hx
    · refine ⟨idle, ?_, hi⟩
      rw [List.cons_append, ← hp]

/-- A path that ends in a name is not trimmed. -/
theorem trimEnd_snoc (parts : List String) {name : String}
    (h : PathStep.ofPart name ≠ .stay) : trimEnd (parts ++ [name]) = parts ++ [name] := by
  induction parts with
  | nil => simp [trimEnd, h]
  | cons part parts ih =>
    unfold trimEnd at ih ⊢
    rw [List.cons_append, List.foldr_cons, ih, if_neg (by simp)]

/-- A path that ends in a name leads through its directory to that name. -/
theorem parts_eq {p : WrittenPath} {name : String} (h : p.name? = some name) :
    PathStep.ofPart name = .down name ∧
      ∃ idle, p.parts = p.directory.parts ++ idle ++ [name] ∧
        ∀ x ∈ idle, PathStep.ofPart x = .stay := by
  unfold name? at h
  obtain ⟨x, hx, h⟩ := Option.bind_eq_some_iff.1 h
  split at h
  · rename_i y hy
    cases h
    obtain ⟨rfl, -⟩ := PathStep.ofPart_eq_down hy
    obtain ⟨front, hf⟩ := List.getLast?_eq_some_iff.1 hx
    refine ⟨hy, ?_⟩
    have hd : p.directory.parts = trimEnd front := by
      rw [directory, hf, trimEnd_snoc _ (by rw [hy]; simp)]
      simp
    obtain ⟨idle, he, hi⟩ := trimEnd_append front
    exact ⟨idle, by rw [hf, hd, ← he], hi⟩
  · cases h

end WrittenPath

namespace FileTree

/-- A name never leads above the top. -/
theorem all_snoc_eq_false (place : NamePath) {name : String} (h : name ≠ "..") :
    (place ++ [name]).all (· = "..") = false := by
  simp [h]

theorem find?_put_self (t : FileTree) {place : NamePath} (node : FileNode)
    (h : place.all (· = "..") = false) : (t.put place node).find? place = some node := by
  simp [find?, put, h]

theorem lookup_filter_ne (entries : List (NamePath × FileNode)) {place q : NamePath}
    (h : q ≠ place) : (entries.filter fun e => e.1 ≠ place).lookup q = entries.lookup q := by
  induction entries with
  | nil => rfl
  | cons e entries ih =>
    obtain ⟨r, node⟩ := e
    by_cases hr : r = place
    · subst hr
      rw [List.filter_cons_of_neg (by simp), ih, List.lookup_cons,
        beq_eq_false_iff_ne.2 h]
    · rw [List.filter_cons_of_pos (by simpa using hr), List.lookup_cons, List.lookup_cons, ih]

theorem find?_put_of_ne (t : FileTree) {place q : NamePath} (node : FileNode) (h : q ≠ place) :
    (t.put place node).find? q = t.find? q := by
  unfold find? put
  split
  · rfl
  · rw [List.lookup_cons, beq_eq_false_iff_ne.2 h]
    exact lookup_filter_ne t.entries h

/-- Putting the same once more changes nothing. -/
theorem put_put_self (t : FileTree) (place : NamePath) (node : FileNode) :
    (t.put place node).put place node = t.put place node := by
  simp [put, List.filter_filter]

/-- Directories stay directories, and what is there stays there. -/
structure Keeps (t u : FileTree) : Prop where
  directory {q : NamePath} : t.find? q = some .directory → u.find? q = some .directory
  isSome {q : NamePath} : (t.find? q).isSome → (u.find? q).isSome

theorem Keeps.refl (t : FileTree) : t.Keeps t := ⟨id, id⟩

theorem Keeps.trans {t u v : FileTree} (h : t.Keeps u) (k : u.Keeps v) : t.Keeps v :=
  ⟨k.directory ∘ h.directory, k.isSome ∘ h.isSome⟩

/-- Whatever is put where no directory was leaves all ways open. -/
theorem keeps_put (t : FileTree) {place : NamePath} (node : FileNode)
    (hp : place.all (· = "..") = false) (h : t.find? place ≠ some .directory) :
    t.Keeps (t.put place node) := by
  constructor
  · intro q hq
    rwa [find?_put_of_ne t node (by rintro rfl; exact h hq)]
  · intro q hq
    by_cases he : q = place
    · rw [he, find?_put_self t node hp]
      rfl
    · rwa [find?_put_of_ne t node he]

theorem Keeps.follow {t u : FileTree} (h : t.Keeps u) {place next : NamePath} {part : String}
    (hf : t.follow place part = .ok next) : u.follow place part = .ok next := by
  unfold FileTree.follow at hf ⊢
  split at hf
  · rename_i hd
    rw [if_pos (h.directory hd)]
    split at hf
    · exact hf
    · exact hf
    · split at hf
      · cases hf
      · split at hf
        · rename_i hl hs
          rw [if_neg hl, if_pos (h.isSome hs)]
          exact hf
        · cases hf
  · cases hf

theorem Keeps.foldlM_follow {t u : FileTree} (h : t.Keeps u) {place last : NamePath}
    {parts : List String} (hf : parts.foldlM t.follow place = .ok last) :
    parts.foldlM u.follow place = .ok last := by
  induction parts generalizing place with
  | nil => exact hf
  | cons part parts ih =>
    rw [List.foldlM_cons] at hf ⊢
    cases hn : t.follow place part with
    | error e => rw [hn] at hf; cases hf
    | ok next =>
      rw [hn] at hf
      rw [h.follow hn]
      exact ih hf

/-- Only a name can be missing, and only in a directory. -/
theorem follow_missing {t : FileTree} {place : NamePath} {part : String}
    (h : t.follow place part = .error .missing) :
    t.find? place = some .directory ∧ PathStep.ofPart part = .down part ∧
      part.utf8ByteSize ≤ PathStep.longestName ∧ t.find? (place ++ [part]) = none := by
  unfold follow at h
  split at h
  · rename_i hd
    split at h
    · cases h
    · cases h
    · rename_i name hp
      obtain ⟨rfl, -⟩ := PathStep.ofPart_eq_down hp
      split at h
      · cases h
      · split at h
        · cases h
        · rename_i hl hs
          exact ⟨hd, hp, Nat.le_of_not_lt hl, by simpa using hs⟩
  · cases h

/-- A name that is there is followed. -/
theorem follow_down {t : FileTree} {place : NamePath} {name : String}
    (hd : t.find? place = some .directory) (hp : PathStep.ofPart name = .down name)
    (hl : name.utf8ByteSize ≤ PathStep.longestName) (hs : (t.find? (place ++ [name])).isSome) :
    t.follow place name = .ok (place ++ [name]) := by
  unfold follow
  rw [if_pos hd, hp]
  simp only
  rw [if_neg (Nat.not_lt.2 hl), if_pos hs]

/-- Steps that lead nowhere are taken in any directory. -/
theorem follow_idle {t : FileTree} {place : NamePath} (hd : t.find? place = some .directory) :
    ∀ {idle : List String}, (∀ x ∈ idle, PathStep.ofPart x = .stay) →
      idle.foldlM t.follow place = .ok place
  | [], _ => rfl
  | x :: idle, h => by
    have hx : t.follow place x = .ok place := by
      unfold follow
      rw [if_pos hd, h x (by simp)]
    rw [List.foldlM_cons, hx]
    exact follow_idle hd fun y hy => h y (by simp [hy])

/-- A lost way stays lost. -/
theorem foldl_enter_none (t : FileTree) (parts : List String) :
    parts.foldl enter (t, none) = (t, none) := by
  induction parts with
  | nil => rfl
  | cons part parts ih => simpa [enter] using ih

/-- Directories that were made are found again by walking. -/
theorem foldl_enter_some {t u : FileTree} {place last : NamePath} {parts : List String}
    (hd : t.find? place = some .directory)
    (h : parts.foldl enter (t, some place) = (u, some last)) :
    t.Keeps u ∧ u.find? last = some .directory ∧ parts.foldlM u.follow place = .ok last := by
  induction parts generalizing t place with
  | nil =>
    cases h
    exact ⟨Keeps.refl _, hd, rfl⟩
  | cons part parts ih =>
    rw [List.foldl_cons, enter] at h
    split at h
    · rename_i next hf
      by_cases hn : t.find? next = some .directory
      · rw [if_pos hn] at h
        obtain ⟨hk, hl, hw⟩ := ih hn h
        refine ⟨hk, hl, ?_⟩
        rw [List.foldlM_cons, hk.follow hf]
        exact hw
      · rw [if_neg hn, foldl_enter_none] at h
        cases h
    · rename_i hf
      obtain ⟨-, hp, hl, hn⟩ := follow_missing hf
      have ha := all_snoc_eq_false place (PathStep.ofPart_eq_down hp).2
      have hs := find?_put_self t FileNode.directory ha
      have hk := keeps_put t FileNode.directory ha (by rw [hn]; simp)
      obtain ⟨hk', hl', hw⟩ := ih hs h
      refine ⟨hk.trans hk', hl', ?_⟩
      rw [List.foldlM_cons, hk'.follow (follow_down (hk.directory hd) hp hl (by rw [hs]; rfl))]
      exact hw
    · rw [foldl_enter_none] at h
      cases h

/-- A walk to a directory starts in one. -/
theorem directory_of_walk {t : FileTree} {place last : NamePath} {parts : List String}
    (hl : t.find? last = some .directory) (h : parts.foldlM t.follow place = .ok last) :
    t.find? place = some .directory := by
  cases parts with
  | nil =>
    cases h
    exact hl
  | cons part parts =>
    by_cases hd : t.find? place = some .directory
    · exact hd
    · rw [List.foldlM_cons, follow, if_neg hd] at h
      cases h

/-- Where all directories are there, none is made. -/
theorem foldl_enter_of_walk {t : FileTree} {place last : NamePath} {parts : List String}
    (hl : t.find? last = some .directory) (h : parts.foldlM t.follow place = .ok last) :
    parts.foldl enter (t, some place) = (t, some last) := by
  induction parts generalizing place with
  | nil =>
    cases h
    rfl
  | cons part parts ih =>
    rw [List.foldlM_cons] at h
    cases hn : t.follow place part with
    | error e =>
      rw [hn] at h
      cases h
    | ok next =>
      rw [hn] at h
      have hw : parts.foldlM t.follow next = .ok last := h
      have he : enter (t, some place) part = (t, some next) := by
        simp only [enter, hn, directory_of_walk hl hw, if_true]
      rw [List.foldl_cons, he]
      exact ih hw

/-- The top is a directory. -/
theorem find?_top (t : FileTree) : t.find? [] = some .directory := rfl

/-- What a store that succeeds has done. -/
theorem store_eq_true {t u : FileTree} {p : WrittenPath} {content : Octets}
    (h : t.store p content = (true, u)) :
    ∃ v place name, t.makeDirectories p.directory = (v, some place) ∧ p.name? = some name ∧
      (p.isAccepted ∧ p.directory.size + draftSize ≤ WrittenPath.longest ∧
        v.canHold place name) ∧ u = v.put (place ++ [name]) (.file content) := by
  unfold store at h
  split at h
  · rename_i v place name hm hn
    split at h
    · rename_i hc
      cases h
      exact ⟨v, place, name, hm, hn, hc, rfl⟩
    · cases h
  · cases h

/-- Directories that were made are found by walking, and are made for a path that is accepted. -/
theorem walk_of_makeDirectories {t v : FileTree} {p : WrittenPath} {place : NamePath}
    (h : t.makeDirectories p = (v, some place)) :
    p.isAccepted ∧ v.find? place = some .directory ∧ p.parts.foldlM v.follow [] = .ok place := by
  unfold makeDirectories at h
  split at h
  · rename_i ha
    obtain ⟨-, hd, hw⟩ := foldl_enter_some (find?_top t) h
    exact ⟨ha, hd, hw⟩
  · cases h

/-- A load ends at a file. -/
theorem load_eq_ok_iff {t : FileTree} {p : WrittenPath} {xs : Octets} :
    t.load p = .ok xs ↔ ∃ place, t.locate p = .ok place ∧ t.find? place = some (.file xs) := by
  cases hl : t.locate p with
  | error e => simp [load, hl, bind, Except.bind]
  | ok place =>
    cases hf : t.find? place with
    | none => simp [load, hl, bind, Except.bind, content?, hf, throw, throwThe, MonadExceptOf.throw]
    | some node =>
      cases node with
      | file content => simp [load, hl, bind, Except.bind, content?, hf, pure, Except.pure]
      | directory =>
        simp [load, hl, bind, Except.bind, content?, hf, throw, throwThe, MonadExceptOf.throw]

/-- **What was stored at a path is loaded from that path.** -/
theorem load_store {t u : FileTree} {p : WrittenPath} {content : Octets}
    (h : t.store p content = (true, u)) : u.load p = .ok content := by
  obtain ⟨v, place, name, hm, hn, ⟨ha, -, hc⟩, rfl⟩ := store_eq_true h
  obtain ⟨hp, idle, he, hi⟩ := WrittenPath.parts_eq hn
  simp only [canHold, Bool.and_eq_true, decide_eq_true_eq] at hc
  have hall := all_snoc_eq_false place (PathStep.ofPart_eq_down hp).2
  obtain ⟨-, hd, hw⟩ := walk_of_makeDirectories hm
  have hk := keeps_put v (.file content) hall (by simpa using hc.2)
  have hs := find?_put_self v (.file content) hall
  have hf := follow_down (hk.directory hd) hp hc.1 (by rw [hs]; rfl)
  have hl : (v.put (place ++ [name]) (.file content)).locate p = .ok (place ++ [name]) := by
    rw [locate, if_pos ha, he, List.foldlM_append, List.foldlM_append, hk.foldlM_follow hw]
    simp only [bind, Except.bind]
    rw [follow_idle (hk.directory hd) hi]
    simp only [List.foldlM_cons, List.foldlM_nil, hf]
    rfl
  exact load_eq_ok_iff.2 ⟨_, hl, hs⟩

/-- **Storing the same once more** succeeds again and changes nothing. -/
theorem store_again {t u : FileTree} {p : WrittenPath} {content : Octets}
    (h : t.store p content = (true, u)) : u.store p content = (true, u) := by
  obtain ⟨v, place, name, hm, hn, ⟨ha, hsize, hc⟩, rfl⟩ := store_eq_true h
  obtain ⟨hp, -⟩ := WrittenPath.parts_eq hn
  obtain ⟨had, hd, hw⟩ := walk_of_makeDirectories hm
  simp only [canHold, Bool.and_eq_true, decide_eq_true_eq] at hc
  have hall := all_snoc_eq_false place (PathStep.ofPart_eq_down hp).2
  have hk := keeps_put v (.file content) hall (by simpa using hc.2)
  have hs := find?_put_self v (.file content) hall
  -- all directories are there, and a file lies where the file is to be
  have hm' : (v.put (place ++ [name]) (.file content)).makeDirectories p.directory =
      (v.put (place ++ [name]) (.file content), some place) := by
    rw [makeDirectories, if_pos had]
    exact foldl_enter_of_walk (hk.directory hd) (hk.foldlM_follow hw)
  have hc' : (v.put (place ++ [name]) (.file content)).canHold place name := by
    rw [canHold, hs, decide_eq_true hc.1]
    rfl
  simp only [store, hm', hn]
  rw [if_pos ⟨ha, hsize, hc'⟩, put_put_self]

/-! ## Stores that fail -/

/-- What is there stays as it is. -/
def Extends (t u : FileTree) : Prop := ∀ q node, t.find? q = some node → u.find? q = some node

theorem Extends.trans {t u v : FileTree} (h : t.Extends u) (k : u.Extends v) : t.Extends v :=
  fun q node hq => k q node (h q node hq)

theorem Extends.keeps {t u : FileTree} (h : t.Extends u) : t.Keeps u where
  directory hq := h _ _ hq
  isSome hq := by
    obtain ⟨node, hn⟩ := Option.isSome_iff_exists.1 hq
    rw [h _ _ hn]
    rfl

/-- What is put where nothing was changes nothing else. -/
theorem extends_put (t : FileTree) {place : NamePath} (node : FileNode)
    (h : t.find? place = none) : t.Extends (t.put place node) := by
  intro q x hq
  rwa [find?_put_of_ne t node]
  rintro rfl
  rw [h] at hq
  cases hq

/-- **Making directories changes nothing that is there**, also if the way is lost. -/
theorem extends_foldl_enter (t : FileTree) (place : Option NamePath) (parts : List String) :
    t.Extends (parts.foldl enter (t, place)).1 := by
  induction parts generalizing t place with
  | nil => exact fun _ _ hq => hq
  | cons part parts ih =>
    cases place with
    | none =>
      rw [foldl_enter_none]
      exact fun _ _ hq => hq
    | some place =>
      rw [List.foldl_cons, enter]
      split
      · exact ih t _
      · rename_i hf
        obtain ⟨-, -, -, hn⟩ := follow_missing hf
        exact (extends_put t .directory hn).trans (ih _ _)
      · exact ih t _

theorem extends_of_store_false {t u : FileTree} {p : WrittenPath} {content : Octets}
    (h : t.store p content = (false, u)) : t.Extends u := by
  have hm : t.Extends (t.makeDirectories p.directory).1 := by
    unfold makeDirectories
    split
    · exact extends_foldl_enter t _ _
    · exact fun _ _ hq => hq
  unfold store at h
  split at h
  · rename_i v place name hd hn
    rw [hd] at hm
    split at h
    · cases h
    · cases h
      exact hm
  · rename_i v _ hd _
    rw [hd] at hm
    cases h
    exact hm

/-- **A store that fails changes no file.** -/
theorem load_of_store_false {t u : FileTree} {p q : WrittenPath} {content xs : Octets}
    (h : t.store p content = (false, u)) (hl : t.load q = .ok xs) : u.load q = .ok xs := by
  have hx := extends_of_store_false h
  obtain ⟨place, hw, hf⟩ := load_eq_ok_iff.1 hl
  refine load_eq_ok_iff.2 ⟨place, ?_, hx _ _ hf⟩
  unfold locate at hw ⊢
  split at hw
  · rename_i ha
    rw [if_pos ha]
    exact hx.keeps.foldlM_follow hw
  · cases hw

end FileTree

end UuidForge
