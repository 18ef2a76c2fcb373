import Octets.Proofs.Log.Wiring

/-!
# Runs of calls about logging

What the two books of the handlers say after any run of calls on any engines, and what the next call
does to them.

* `InStep.level_step` — a call sets the level of the handler it is about, and of no other.
* `Follows.step` — a call keeps what the books say about the run before it.
* `InStep.partitioned` — the handlers attached are the disjoint union of the maps of the engines.
* `InStep.obeys` — a call that fails leaves all handlers as they were, and closing detaches those of
  one engine.
* `handlers_wired` — all of it, after any run of calls.
-/

namespace Octets.Log

/-! ## The level that a run sets -/

namespace Logging

/-- The level that a call sets for a path of an engine: the one it names, if it does not fail and is
about that path. -/
def sets? (logging : Logging) (owner : Nat) (path : PathName) (s : Step) : Option Int :=
  match s, (logging.step s).1 with
  | .configure other _ given contents _, .ok () =>
    if other = owner ∧ given.holds contents = true ∧
      (pathOf given).toOption = some path then s.level? else none
  | _, _ => none

/-- The level that the latest of the calls about a path of an engine sets. -/
def latestLevel? (logging : Logging) (owner : Nat) (path : PathName) : List Step → Option Int
  | [] => none
  | s :: rest => ((logging.step s).2.latestLevel? owner path rest).or (logging.sets? owner path s)

section

variable {logging : Logging} {owner : Nat} {path : PathName}

theorem after_concat (logging : Logging) (steps : List Step) (s : Step) :
    logging.after (steps ++ [s]) = ((logging.after steps).step s).2 := by
  simp only [after, List.foldl_append, List.foldl_cons, List.foldl_nil]

theorem latestLevel?_concat (steps : List Step) (s : Step) :
    logging.latestLevel? owner path (steps ++ [s])
      = ((logging.after steps).sets? owner path s).or (logging.latestLevel? owner path steps) := by
  induction steps generalizing logging with
  | nil => simp [latestLevel?, after]
  | cons first rest ih =>
    rw [List.cons_append, latestLevel?, latestLevel?, ih, Option.or_assoc]
    rfl

theorem sets?_of_error {s : Step} {fault : Fault} (h : (logging.step s).1 = .error fault) :
    logging.sets? owner path s = none := by
  cases s with
  | close other => rfl
  | configure other level given contents files => simp only [sets?, h]

theorem sets?_of_ok {other : Nat} {level given : Value} {contents : Nat → Bytes} {files : Files}
    (h : (logging.step (.configure other level given contents files)).1 = .ok ()) :
    logging.sets? owner path (.configure other level given contents files)
      = if other = owner ∧ given.holds contents = true ∧ (pathOf given).toOption = some path then
          (levelFrom contents level).toOption
        else none := by
  simp only [sets?, h, Step.level?]

end

end Logging

namespace Wiring

/-! ## Levels -/

section

variable {w : Wiring}

/-- The root has the level of the last call that names one. -/
theorem rootLevel_step (w : Wiring) (s : Step) :
    (w.step s).2.rootLevel = s.level?.getD w.rootLevel := by
  cases s with
  | close owner => rfl
  | configure owner level path contents files =>
    show (w.configure files contents owner level path).2.rootLevel
      = (Logging.levelFrom contents level).toOption.getD w.rootLevel
    generalize hresult : w.configure files contents owner level path = result
    cases hresult ▸ configures_configure w files contents owner level path with
    | invalid fault hlevel => rw [hlevel]; rfl
    | pathless n hlevel => rw [hlevel]; rfl
    | refused n fault hlevel => rw [hlevel]; rfl
    | relevelled n name number hlevel => rw [hlevel]; rfl
    | attached n name route hlevel => rw [hlevel]; rfl

/-- **A call sets the level of the handler it is about, and of no other.** -/
theorem InStep.level_step (hw : w.InStep) (s : Step) {owner i : Nat} {path : PathName} {h : Handler}
    (hmem : (path, i) ∈ (w.step s).2.maps owner) (hmade : (w.step s).2.made[i]? = some h) :
    w.view.sets? owner path s = some h.level ∨
      w.view.sets? owner path s = none ∧ (path, i) ∈ w.maps owner ∧ w.made[i]? = some h := by
  have hview := (hw.view_step s).1
  cases s with
  | close other =>
    refine Or.inr ⟨rfl, ?_, hmade⟩
    have hmem : (path, i) ∈ Function.update w.maps other [] owner := hmem
    by_cases howner : owner = other
    · simp [howner] at hmem
    · rwa [Function.update_of_ne howner] at hmem
  | configure other level given contents files =>
    have hcases := configures_configure w files contents other level given
    have hstep : w.step (.configure other level given contents files)
        = w.configure files contents other level given := rfl
    rw [hstep] at hview hmem hmade
    generalize w.configure files contents other level given = result at hview hmem hmade hcases
    cases hcases with
    | invalid fault => exact Or.inr ⟨Logging.sets?_of_error hview.symm, hmem, hmade⟩
    | refused n fault => exact Or.inr ⟨Logging.sets?_of_error hview.symm, hmem, hmade⟩
    | pathless n hlevel hpath =>
      refine Or.inr ⟨?_, hmem, hmade⟩
      rw [Logging.sets?_of_ok hview.symm, hpath]
      simp
    | relevelled n name number hlevel hpath hname hold =>
      rw [Logging.sets?_of_ok hview.symm, hlevel, hpath, hname]
      have hmem : (path, i) ∈ w.maps owner := hmem
      rw [getElem?_setLevel] at hmade
      by_cases habout : other = owner ∧ name = path
      · obtain ⟨rfl, rfl⟩ := habout
        obtain rfl := hw.unique hold hmem
        obtain ⟨g, -, rfl⟩ := Option.map_eq_some_iff.1 hmade
        exact Or.inl (by simp [Except.toOption])
      · have hne : number ≠ i := by
          rintro rfl
          exact habout (hw.disjoint hold hmem)
        refine Or.inr ⟨if_neg ?_, hmem, ?_⟩
        · rintro ⟨howner, -, hpath⟩
          exact habout ⟨howner, Option.some.inj hpath⟩
        · obtain ⟨g, hg, rfl⟩ := Option.map_eq_some_iff.1 hmade
          rwa [if_neg hne]
    | attached n name route hlevel hpath hname hnew =>
      rw [Logging.sets?_of_ok hview.symm, hlevel, hpath, hname]
      rcases (mem_maps_add _ _ _).1 hmem with hmem | ⟨rfl, rfl, rfl⟩
      · -- a handler of before, so the one that is new is for another engine or another path
        have hlive := hw.live i ((hw.mem_iff _ _ _).1 hmem).1
        refine Or.inr ⟨if_neg ?_, hmem, ?_⟩
        · rintro ⟨rfl, -, hpath⟩
          exact hnew i (Option.some.inj hpath ▸ hmem)
        · rwa [← List.getElem?_append_left hlive]
      · have hmade : (w.made ++ [_])[w.made.length]? = some h := hmade
        rw [List.getElem?_concat_length, Option.some.injEq] at hmade
        subst hmade
        exact Or.inl (by simp [Except.toOption])

end

/-! ## The books after a run -/

/-- What the books say after a run of calls. -/
structure Follows (w : Wiring) (steps : List Step) : Prop where
  /-- They are in step. -/
  inStep : w.InStep
  /-- The handlers attached are those that `Logging` has after the same calls. -/
  view : w.view = Logging.initial.after steps
  /-- The root has the level of the last call that names one. -/
  rootLevel : w.rootLevel = (steps.reverse.findSome? Step.level?).getD warning
  /-- A handler in a map has the level of the latest call about its path that did not fail. -/
  level : ∀ owner path i, (path, i) ∈ w.maps owner →
    (w.made[i]?).map (·.level) = Logging.initial.latestLevel? owner path steps

theorem follows_initial : initial.Follows [] where
  inStep := inStep_initial
  view := rfl
  rootLevel := rfl
  level _ _ _ hmem := absurd hmem List.not_mem_nil

/-- **A call keeps what the books say about the run before it.** -/
theorem Follows.step {w : Wiring} {steps : List Step} (hw : w.Follows steps) (s : Step) :
    (w.step s).2.Follows (steps ++ [s]) where
  inStep := hw.inStep.step s
  view := by rw [Logging.after_concat, ← hw.view, (hw.inStep.view_step s).2]
  rootLevel := by
    rw [rootLevel_step, hw.rootLevel, List.reverse_append, List.reverse_singleton,
      List.singleton_append, List.findSome?_cons]
    cases s.level? <;> rfl
  level owner path i hmem := by
    obtain ⟨-, h, hmade, -⟩ := ((hw.inStep.step s).mem_iff owner path i).1 hmem
    rw [hmade, Option.map_some, Logging.latestLevel?_concat, ← hw.view]
    rcases hw.inStep.level_step s hmem hmade with hsets | ⟨hsets, hold, hmade⟩
    · rw [hsets, Option.some_or]
    · rw [hsets, Option.none_or, ← hw.level owner path i hold, hmade, Option.map_some]

theorem follows_after (steps : List Step) : (initial.after steps).Follows steps := by
  induction steps using List.reverseRecOn with
  | nil => exact follows_initial
  | append_singleton steps s ih =>
    have hafter : initial.after (steps ++ [s]) = ((initial.after steps).step s).2 := by
      simp only [after, List.foldl_append, List.foldl_cons, List.foldl_nil]
    rw [hafter]
    exact ih.step s

/-! ## One map for each engine -/

/-- The handlers attached are the disjoint union of the maps of the engines, each attached once. -/
structure Partitioned (w : Wiring) : Prop where
  /-- No map has two handlers for one path. -/
  paths : ∀ owner, ((w.maps owner).map (·.1)).Nodup
  once : w.attached.Nodup
  union : ∀ i, i ∈ w.attached ↔ ∃ owner path, (path, i) ∈ w.maps owner
  disjoint : ∀ owner other path path' i, (path, i) ∈ w.maps owner → (path', i) ∈ w.maps other →
    owner = other ∧ path = path'

theorem InStep.partitioned {w : Wiring} (hw : w.InStep) : w.Partitioned where
  paths := hw.paths
  once := hw.once
  union i := by
    constructor
    · intro hi
      have hmade := List.getElem?_eq_getElem (hw.live i hi)
      exact ⟨_, _, (hw.mem_iff _ _ _).2 ⟨hi, _, hmade, rfl, rfl⟩⟩
    · rintro ⟨owner, path, hmem⟩
      exact ((hw.mem_iff _ _ _).1 hmem).1
  disjoint _ _ _ _ _ hmem hmem' := hw.disjoint hmem hmem'

/-! ## The next call -/

/-- What the next call does to the books. -/
structure Obeys (w : Wiring) : Prop where
  /-- It has the outcome that it has on `Logging`. -/
  outcome : ∀ s, (w.step s).1 = (w.view.step s).1
  /-- If it fails, it leaves all as it was; but a level that it names is the root's from then on. -/
  failed : ∀ s fault, (w.step s).1 = .error fault →
    (w.step s).2 = { w with rootLevel := s.level?.getD w.rootLevel }
  /-- To close an engine is to detach what is in its map, and to empty the map. -/
  closed : ∀ owner, w.close owner =
    { w with
      attached := w.attached.filter fun i => i ∉ (w.maps owner).map (·.2)
      maps := Function.update w.maps owner [] }
  /-- The handlers of other engines stay attached, whatever their paths. -/
  others : ∀ owner other path i, other ≠ owner → (path, i) ∈ w.maps other →
    (path, i) ∈ (w.close owner).maps other ∧ i ∈ (w.close owner).attached
  /-- To close an engine again does nothing. -/
  again : ∀ owner, (w.close owner).close owner = w.close owner

theorem step_of_error (w : Wiring) (s : Step) (fault : Fault) (h : (w.step s).1 = .error fault) :
    (w.step s).2 = { w with rootLevel := s.level?.getD w.rootLevel } := by
  cases s with
  | close owner => cases h
  | configure owner level path contents files =>
    have hcases := configures_configure w files contents owner level path
    have hstep : w.step (.configure owner level path contents files)
        = w.configure files contents owner level path := rfl
    rw [hstep] at h ⊢
    generalize w.configure files contents owner level path = result at h hcases
    cases hcases with
    | invalid fault hlevel => rw [Step.level?, hlevel]; rfl
    | refused n fault hlevel => rw [Step.level?, hlevel]; rfl
    | pathless => cases h
    | relevelled => cases h
    | attached => cases h

theorem close_close (w : Wiring) (owner : Nat) : (w.close owner).close owner = w.close owner := by
  simp [close]

/-- **A call that fails leaves all handlers as they were, and closing detaches those of one
engine.** -/
theorem InStep.obeys {w : Wiring} (hw : w.InStep) : w.Obeys where
  outcome s := (hw.view_step s).1
  failed := w.step_of_error
  closed owner := by
    rw [← hw.attached_close owner]
    rfl
  others owner other path i hother hmem := by
    have hkept : (path, i) ∈ (w.close owner).maps other := by
      show (path, i) ∈ Function.update w.maps owner [] other
      rwa [Function.update_of_ne hother]
    exact ⟨hkept, (((hw.close owner).mem_iff _ _ _).1 hkept).1⟩
  again := w.close_close

/-- **After any calls on any engines, however they end, the handlers attached are those in the maps
of the engines**, each at the level of the latest call about it that did not fail; and the next call
keeps it so. -/
theorem handlers_wired (steps : List Step) :
    (initial.after steps).Follows steps ∧ (initial.after steps).Partitioned ∧
      (initial.after steps).Obeys := by
  have hfollows := follows_after steps
  exact ⟨hfollows, hfollows.inStep.partitioned, hfollows.inStep.obeys⟩

end Wiring

end Octets.Log
