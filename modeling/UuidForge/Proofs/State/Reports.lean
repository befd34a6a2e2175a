import UuidForge.Proofs.State.Independence
import UuidForge.Proofs.State.OwnFile

/-!
# Failures and listeners

A failed load or write is remembered, and handed to the listener of that time if there is one. What
a failure is follows from the files that an event meets with, and which listener is installed from
the events before; neither is read off the log.

* `Host.failure?`: **the failure that an occurrence meets with.**
* `Host.notes_meet`: an occurrence adds its failure to the log, and nothing else.
* `Host.reported_once`: **the log of a run is the list of its failures**, each with its listener.
-/

namespace UuidForge

namespace GeneratorState

variable {s s' s'' : GeneratorState} {f? : Option StorageFailure}

/-- The delivery of a failure, if there is a listener. -/
def deliver (l : Option Listener) (f : StorageFailure) : Option Delivery := l.map fun l => ⟨l, f⟩

/-- A state goes on to another one and takes note of a failure, if there was one. -/
structure Notes (s s' : GeneratorState) (f? : Option StorageFailure) : Prop where
  listener : s'.listener = s.listener
  deliveries : s'.deliveries = s.deliveries ++ f?.toList.filterMap (deliver s.listener)
  lastFailure : s'.lastFailure = f?.or s.lastFailure

theorem Notes.of_eq (hl : s'.listener = s.listener) (hd : s'.deliveries = s.deliveries)
    (hf : s'.lastFailure = s.lastFailure) : Notes s s' none :=
  ⟨hl, hd.trans (List.append_nil _).symm, hf⟩

/-- What comes before without a failure makes no difference. -/
theorem Notes.after (h : Notes s s' none) (h' : Notes s' s'' f?) : Notes s s'' f? := by
  have hd : s'.deliveries = s.deliveries := h.deliveries.trans (List.append_nil _)
  refine ⟨h'.listener.trans h.listener, ?_, ?_⟩
  · rw [h'.deliveries, hd, h.listener]
  · rw [h'.lastFailure, h.lastFailure]
    rfl

theorem notes_report (s : GeneratorState) (f : StorageFailure) : Notes s (s.report f) (some f) := by
  refine ⟨rfl, ?_, rfl⟩
  rw [report]
  cases s.listener <;> rfl

/-- **A save takes note of a write that is refused.** -/
theorem notes_save (s : GeneratorState) (now : Span) (files : FileTree) :
    Notes s (s.save now files).2.1
      (if (s.path.map fun p => (storeRecord files p s.snapshot).1) = some false
        then s.path.map fun p => ⟨.write, p, .io⟩ else none) := by
  cases hp : s.path with
  | none =>
    simp only [save, hp]
    exact .of_eq rfl rfl rfl
  | some p =>
    have hs : Notes s { s with path := some p, lastSave := some now } none := .of_eq rfl rfl rfl
    cases hw : (storeRecord files p s.snapshot).1 with
    | true =>
      simp only [save, hp, hw, if_true, Option.map_some, Option.some.injEq, Bool.true_eq_false,
        if_false]
      exact hs
    | false =>
      simp only [save, hp, hw, if_true, Option.map_some, Bool.false_eq_true, if_false]
      exact hs.after (notes_report _ _)

theorem notes_advance (s : GeneratorState) (k : ClockKind) (t : Ticks) (node : Option NodeId) :
    Notes s (s.advance k t node).2 none := by
  cases k <;> exact .of_eq rfl rfl rfl

theorem notes_nonVolatileNode (s : GeneratorState) (e : Entropy) :
    Notes s (s.nonVolatileNode e).2.1 none := by
  unfold nonVolatileNode
  split <;> exact .of_eq rfl rfl rfl

end GeneratorState

namespace Occurrence

/-- The state stays, whatever happens to it: no new one takes its place. -/
def keepsState : Occurrence → Bool
  | own (.restart _) => false
  | _ => true

/-- The listener that is installed after an occurrence. -/
def installed (l : Option Listener) : Occurrence → Option Listener
  | own (.listen l) => some l
  | _ => l

/-- No listener is installed. -/
def isUnheard : Occurrence → Bool
  | own (.listen _) => false
  | _ => true

end Occurrence

namespace Host

open GeneratorState (Notes deliver)

variable {h : Host} {o : Occurrence} {os : List Occurrence} {l : Option Listener}

/-- **The failure that an occurrence meets with**: a file that cannot be loaded, or one that a save
or a refresh tries to write and cannot. -/
def failure? (h : Host) : Occurrence → Option StorageFailure
  | .own (.attach (some p)) =>
    match GeneratorState.loadRecord h.files p with
    | .error cause => some ⟨.read, p, cause⟩
    | .ok _ => none
  | .own e =>
    if h.writes? e = some false then h.state.path.map fun p => ⟨.write, p, .io⟩ else none
  | .outside .. => none

/-- **A load or a save that fails is one that answers so**, while a path is set. -/
theorem failure?_isSome_iff (h : Host) :
    (∀ p, (h.failure? (.own (.attach (some p)))).isSome ↔ (attach (some p) h).1 = false) ∧
      ((h.failure? (.own .save)).isSome ↔ h.state.path.isSome ∧ (save h).1 = false) := by
  constructor
  · intro p
    cases hl : GeneratorState.loadRecord h.files p with
    | ok r => simp [failure?, attach, GeneratorState.attach_of_ok hl, hl]
    | error cause => simp [failure?, attach, GeneratorState.attach_of_error hl, hl]
  · cases hp : h.state.path with
    | none => simp [failure?, writes?, hp]
    | some p => simp [failure?, writes?, save, GeneratorState.save, hp]

/-- **An occurrence adds its failure to the log**, and nothing else. -/
theorem notes_meet (ho : o.keepsState) (hu : o.isUnheard) :
    Notes h.state (h.meet o).state (h.failure? o) := by
  cases o with
  | outside => exact .of_eq rfl rfl rfl
  | own e =>
    cases e with
    | refresh k t node =>
      have ha := GeneratorState.notes_advance h.state k t node
      have hp : (h.state.advance k t node).2.path = h.state.path := by cases k <;> rfl
      simp only [failure?, writes?, meet, step, refresh, GeneratorState.refresh]
      split
      · rw [← hp]
        exact ha.after (GeneratorState.notes_save _ _ _)
      · exact ha
    | save => exact GeneratorState.notes_save h.state h.mono h.files
    | node => exact GeneratorState.notes_nonVolatileNode h.state h.entropy
    | attach path =>
      cases path with
      | none => exact .of_eq rfl rfl rfl
      | some p =>
        have hs : Notes h.state { h.state with path := some p, lastSave := none } none :=
          .of_eq rfl rfl rfl
        cases hl : GeneratorState.loadRecord h.files p with
        | ok r =>
          simp only [failure?, meet, step, attach, GeneratorState.attach_of_ok hl, hl]
          exact .of_eq rfl rfl rfl
        | error cause =>
          simp only [failure?, meet, step, attach, GeneratorState.attach_of_error hl, hl]
          exact hs.after (GeneratorState.notes_report _ _)
    | reset => exact .of_eq rfl rfl rfl
    | listen => cases hu
    | restart => cases ho
    | pass => exact .of_eq rfl rfl rfl

theorem listener_meet (ho : o.keepsState) :
    (h.meet o).state.listener = o.installed h.state.listener := by
  cases hu : o.isUnheard with
  | true =>
    have hi : o.installed h.state.listener = h.state.listener := by
      unfold Occurrence.installed
      split
      · cases hu
      · rfl
    rw [hi]
    exact (notes_meet ho hu).listener
  | false =>
    unfold Occurrence.isUnheard at hu
    split at hu
    · rfl
    · cases hu

/-- The log after an occurrence. A new listener is told of nothing that was before. -/
theorem log_meet (ho : o.keepsState) :
    (h.meet o).state.deliveries =
        h.state.deliveries ++ (h.failure? o).toList.filterMap (deliver h.state.listener) ∧
      (h.meet o).state.lastFailure = (h.failure? o).or h.state.lastFailure := by
  cases hu : o.isUnheard with
  | true => exact ⟨(notes_meet ho hu).deliveries, (notes_meet ho hu).lastFailure⟩
  | false =>
    unfold Occurrence.isUnheard at hu
    split at hu
    · exact ⟨(List.append_nil _).symm, rfl⟩
    · cases hu

/-! ## Runs -/

/-- The failures of a run, in order. -/
def failures : Host → List Occurrence → List StorageFailure
  | _, [] => []
  | h, o :: os => (h.failure? o).toList ++ failures (h.meet o) os

/-- The failures of a run, each with the listener that is installed at that time. -/
def incidents : Option Listener → Host → List Occurrence → List (Option Listener × StorageFailure)
  | _, _, [] => []
  | l, h, o :: os =>
    (h.failure? o).toList.map (Prod.mk l) ++ incidents (o.installed l) (h.meet o) os

/-- **The log of a run.** -/
theorem log_meetAll (hk : ∀ o ∈ os, o.keepsState) :
    (h.meetAll os).state.deliveries = h.state.deliveries ++
        (incidents h.state.listener h os).filterMap (fun i => deliver i.1 i.2) ∧
      (h.meetAll os).state.lastFailure = (failures h os).getLast?.or h.state.lastFailure := by
  induction os generalizing h with
  | nil => exact ⟨(List.append_nil _).symm, rfl⟩
  | cons o os ih =>
    have ho := hk o List.mem_cons_self
    obtain ⟨hd, hf⟩ := log_meet ho
    obtain ⟨ihd, ihf⟩ := ih (h := h.meet o) fun x hx => hk x (List.mem_cons_of_mem o hx)
    have hall : h.meetAll (o :: os) = (h.meet o).meetAll os := rfl
    rw [hall, ihd, ihf, hd, hf, listener_meet ho, incidents, failures]
    constructor
    · rw [List.filterMap_append, List.filterMap_map, List.append_assoc]
      rfl
    · have hlast : (h.failure? o).toList.getLast? = h.failure? o := by
        cases h.failure? o <;> rfl
      rw [List.getLast?_append, hlast, Option.or_assoc]

/-- Once a listener is installed, every failure is delivered. -/
theorem delivered_of_some (l : Listener) (h : Host) (os : List Occurrence) :
    ((incidents (some l) h os).filterMap fun i => deliver i.1 i.2).map Delivery.failure =
      failures h os := by
  induction os generalizing l h with
  | nil => rfl
  | cons o os ih =>
    obtain ⟨l', hl'⟩ : ∃ l', o.installed (some l) = some l' := by
      unfold Occurrence.installed
      split
      · exact ⟨_, rfl⟩
      · exact ⟨l, rfl⟩
    rw [incidents, failures, hl', List.filterMap_append, List.map_append, ih]
    cases h.failure? o <;> rfl

/-- Before a listener is installed, nothing is delivered. -/
theorem deliveries_of_unheard (hk : ∀ o ∈ os, o.keepsState) (hu : ∀ o ∈ os, o.isUnheard)
    (hl : h.state.listener = none) : (h.meetAll os).state.deliveries = h.state.deliveries := by
  induction os generalizing h with
  | nil => rfl
  | cons o os ih =>
    have hn := notes_meet (h := h) (hk o List.mem_cons_self) (hu o List.mem_cons_self)
    have hd : (h.meet o).state.deliveries = h.state.deliveries := by
      rw [hn.deliveries, hl]
      cases h.failure? o <;> exact List.append_nil _
    rw [← hd]
    exact ih (fun x hx => hk x (List.mem_cons_of_mem o hx))
      (fun x hx => hu x (List.mem_cons_of_mem o hx)) (hn.listener.trans hl)

theorem meetAll_append (h : Host) (os₁ os₂ : List Occurrence) :
    h.meetAll (os₁ ++ os₂) = (h.meetAll os₁).meetAll os₂ := List.foldl_append

/-- **Every failure is reported once.** In every run of one state, whatever files its loads and
saves meet with: the log grows by the failures of the run, one each and in order, each delivered to
the listener that is installed at that time; from the first listener on, that is all of them. The
last failure of the run is remembered, whatever succeeds after it. A refresh that does not try to
write reports nothing, and a load or a save is a failure exactly if it answers so. -/
theorem reported_once (hk : ∀ o ∈ os, o.keepsState) :
    (h.meetAll os).state.deliveries = h.state.deliveries ++
        (incidents h.state.listener h os).filterMap (fun i => deliver i.1 i.2) ∧
    (∀ before l after, os = before ++ .own (.listen l) :: after → h.state.listener = none →
      (∀ o ∈ before, o.isUnheard) →
      (h.meetAll os).state.deliveries.map Delivery.failure =
        h.state.deliveries.map Delivery.failure ++
          failures (h.meetAll (before ++ [.own (.listen l)])) after) ∧
    (h.meetAll os).state.lastFailure = (failures h os).getLast?.or h.state.lastFailure ∧
    (∀ k t node, (h.meetAll os).Unattempted k t node →
      ((h.meetAll os).step (.refresh k t node)).state.deliveries = (h.meetAll os).state.deliveries ∧
      ((h.meetAll os).step (.refresh k t node)).state.lastFailure =
        (h.meetAll os).state.lastFailure) ∧
    (∀ p, ((h.meetAll os).failure? (.own (.attach (some p)))).isSome ↔
      (attach (some p) (h.meetAll os)).1 = false) ∧
    (((h.meetAll os).failure? (.own .save)).isSome ↔
      (h.meetAll os).state.path.isSome ∧ (save (h.meetAll os)).1 = false) := by
  obtain ⟨hd, hf⟩ := log_meetAll hk
  refine ⟨hd, ?_, hf, fun k t node hun => ?_, failure?_isSome_iff _⟩
  · rintro before l after rfl hl hu
    -- nothing is delivered up to the first listener, and everything after it
    set h₁ := h.meetAll (before ++ [.own (.listen l)]) with hh₁
    have hall : h.meetAll (before ++ .own (.listen l) :: after) = h₁.meetAll after := by
      rw [List.append_cons, meetAll_append]
    have hsilent : h₁.state.deliveries = h.state.deliveries := by
      rw [hh₁, meetAll_append]
      exact deliveries_of_unheard (fun o ho => hk o (List.mem_append_left _ ho)) hu hl
    have hlisten : h₁.state.listener = some l := by
      rw [hh₁, meetAll_append]
      rfl
    have hka : ∀ o ∈ after, o.keepsState := fun o ho =>
      hk o (List.mem_append_right _ (List.mem_cons_of_mem _ ho))
    have hrest := (log_meetAll (h := h₁) hka).1
    rw [hall, hrest, hsilent, hlisten, List.map_append, delivered_of_some]
  · have hw := writes?_refresh_eq_none_iff.2 hun
    have hn := notes_meet (h := h.meetAll os) (o := .own (.refresh k t node)) rfl rfl
    have hnone : (h.meetAll os).failure? (.own (.refresh k t node)) = none := by
      simp only [failure?, hw]
      rfl
    rw [hnone] at hn
    exact ⟨hn.deliveries.trans (List.append_nil _), hn.lastFailure⟩

/-! ## A directory in the place of the file -/

/-- A host with a new state, and a directory where its file is to be. -/
def obstructed : Host := { detached with files := { entries := [(["state.bin"], .directory)] } }

/-- The second refresh is throttled, though the write of the first one failed. The directory is
taken away before the last save. -/
def hindered : List Occurrence :=
  [.own (.attach (some "state.bin")), .own (.listen 1), .own (.refresh .physical 1000 (some 1)),
    .own (.refresh .physical 2000 (some 1)), .own (.listen 2), .own .save,
    .outside {} (.ofScript #[]), .own .save]

/-- The failed load comes before the first listener, and the last failure is kept when a save
succeeds. -/
theorem reported_once_hindered :
    (obstructed.meetAll hindered).state.deliveries =
        [⟨1, .write, "state.bin", .io⟩, ⟨2, .write, "state.bin", .io⟩] ∧
      failures obstructed hindered =
        [⟨.read, "state.bin", .io⟩, ⟨.write, "state.bin", .io⟩, ⟨.write, "state.bin", .io⟩] ∧
      (obstructed.meetAll hindered).state.lastFailure = some ⟨.write, "state.bin", .io⟩ ∧
      (save (obstructed.meetAll hindered)).1 = true := by
  have hk : ∀ o ∈ hindered, o.keepsState := by decide
  obtain ⟨hd, -, hf, -⟩ := reported_once (h := obstructed) hk
  have hlog : failures obstructed hindered =
      [⟨.read, "state.bin", .io⟩, ⟨.write, "state.bin", .io⟩, ⟨.write, "state.bin", .io⟩] := by
    decide
  rw [hlog] at hf
  exact ⟨hd.trans (by decide), hlog, hf, by decide⟩

end Host

end UuidForge
