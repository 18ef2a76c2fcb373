import Mathlib.Data.List.Induction
import Mathlib.Data.List.Nodup
import Mathlib.Logic.Function.Basic
import Octets.Log.Logging

/-!
# Handlers in two books

`Logging` has all handlers in one list, each with its engine. Here they are objects with numbers,
kept in two books (`Wiring`): the root has the numbers of the handlers attached to it, and every
engine has a map from paths to the numbers of its own. A call writes both books, and may stop in
between.

* `InStep.view_step` — whatever is called, the handlers attached are those that `Logging` has, and
  the call has the same outcome.
* `configures_configure` — what configuring can do, in five cases.
* `InStep.step` — the books stay in step: what is attached is in just one map, under one path.
-/

namespace Octets.Log

/-! ## Calls -/

/-- A call about logging on an engine, with the contents of the buffers and the files as they are
then. -/
inductive Step where
  | configure (owner : Nat) (level path : Value) (contents : Nat → Bytes) (files : Files)
  | close (owner : Nat)

/-- The level that a call names, if it is one. -/
def Step.level? : Step → Option Int
  | configure _ level _ contents _ => (Logging.levelFrom contents level).toOption
  | close _ => none

namespace Logging

/-- The outcome of a call, and the logging behind it. -/
def step (logging : Logging) : Step → Except Fault Unit × Logging
  | .configure owner level path contents files =>
    let result := logging.configure files contents owner level path
    (result.1, result.2.1)
  | .close owner => (.ok (), logging.close owner)

/-- The logging behind a run of calls. -/
def after (logging : Logging) (steps : List Step) : Logging :=
  steps.foldl (fun l s => (l.step s).2) logging

end Logging

/-! ## Two books -/

/-- Handlers as objects, and the two books that are kept of them. -/
structure Wiring where
  rootLevel : Int
  /-- All handlers that have been made, by number. -/
  made : List Handler
  /-- The numbers of the handlers attached to the root, in order. -/
  attached : List Nat
  /-- For every engine the numbers of its handlers, by path. -/
  maps : Nat → List (PathName × Nat)

namespace Wiring

/-- Before anything is configured. -/
def initial : Wiring := ⟨warning, [], [], fun _ => []⟩

/-- The handlers attached to the root. -/
def view (w : Wiring) : Logging := ⟨w.rootLevel, w.attached.filterMap fun i => w.made[i]?⟩

/-- Sets the level of a handler. -/
def setLevel (w : Wiring) (number : Nat) (level : Int) : Wiring :=
  { w with made := w.made.modify number fun h => { h with level := level } }

/-- Makes a handler, attaches it to the root and enters it into the map of its engine. -/
def add (w : Wiring) (h : Handler) : Wiring :=
  { w with
    made := w.made ++ [h]
    attached := w.attached ++ [w.made.length]
    maps := Function.update w.maps h.owner (w.maps h.owner ++ [(h.path, w.made.length)]) }

/-- Sets the level of the handler that the map of an engine has for a path, or makes one. -/
def attach (w : Wiring) (files : Files) (owner : Nat) (level : Int) (path : Value) :
    Except Fault Wiring := do
  let path ← Logging.pathOf path
  match (w.maps owner).find? fun e => e.1 = path with
  | some (_, number) => return w.setLevel number level
  | none =>
    let _ ← Logging.openFile files path
    return w.add ⟨owner, path, Logging.fileOf path, level⟩

/-- Sets the root level and, if there is a path, attaches a handler of this level. -/
def configure (w : Wiring) (files : Files) (contents : Nat → Bytes) (owner : Nat)
    (level path : Value) : Except Fault Unit × Wiring :=
  match Logging.levelFrom contents level with
  | .error fault => (.error fault, w)
  | .ok n =>
    let w := { w with rootLevel := n }
    if path.holds contents then
      match w.attach files owner n path with
      | .ok w => (.ok (), w)
      | .error fault => (.error fault, w)
    else (.ok (), w)

/-- Detaches the handlers in the map of an engine one by one, and empties the map. -/
def close (w : Wiring) (owner : Nat) : Wiring :=
  { w with
    attached := (w.maps owner).foldl (fun attached e => attached.erase e.2) w.attached
    maps := Function.update w.maps owner [] }

/-- The outcome of a call, and the books behind it. -/
def step (w : Wiring) : Step → Except Fault Unit × Wiring
  | .configure owner level path contents files => w.configure files contents owner level path
  | .close owner => (.ok (), w.close owner)

/-- The books behind a run of calls. -/
def after (w : Wiring) (steps : List Step) : Wiring := steps.foldl (fun w s => (w.step s).2) w

/-! ## Books in step -/

/-- The books are in step: each handler attached is in one map, under one path, and nothing else
is. -/
structure InStep (w : Wiring) : Prop where
  live : ∀ i ∈ w.attached, i < w.made.length
  once : w.attached.Nodup
  mem_iff : ∀ owner path i, (path, i) ∈ w.maps owner ↔
    i ∈ w.attached ∧ ∃ h, w.made[i]? = some h ∧ h.owner = owner ∧ h.path = path
  paths : ∀ owner, ((w.maps owner).map (·.1)).Nodup

section

variable {w : Wiring} {owner number : Nat} {path : PathName} {level : Int}

theorem inStep_initial : initial.InStep where
  live := by simp [initial]
  once := List.nodup_nil
  mem_iff := by simp [initial]
  paths _ := List.nodup_nil

theorem InStep.unique (h : w.InStep) {j : Nat} (hi : (path, number) ∈ w.maps owner)
    (hj : (path, j) ∈ w.maps owner) : number = j := by
  have heq := List.inj_on_of_nodup_map (h.paths owner) hi hj rfl
  exact congrArg Prod.snd heq

/-- No handler is in the books for two engines or two paths. -/
theorem InStep.disjoint (h : w.InStep) {other : Nat} {path' : PathName}
    (hmem : (path, number) ∈ w.maps owner) (hmem' : (path', number) ∈ w.maps other) :
    owner = other ∧ path = path' := by
  obtain ⟨-, g, hg, rfl, rfl⟩ := (h.mem_iff _ _ _).1 hmem
  obtain ⟨-, g', hg', rfl, rfl⟩ := (h.mem_iff _ _ _).1 hmem'
  obtain rfl := Option.some.inj (hg.symm.trans hg')
  exact ⟨rfl, rfl⟩

theorem InStep.withRootLevel (h : w.InStep) (n : Int) : InStep { w with rootLevel := n } :=
  ⟨h.live, h.once, h.mem_iff, h.paths⟩

theorem getElem?_setLevel (w : Wiring) (number : Nat) (level : Int) (i : Nat) :
    (w.setLevel number level).made[i]?
      = (w.made[i]?).map fun h => if number = i then { h with level := level } else h := by
  rw [setLevel, List.getElem?_modify]
  cases w.made[i]? <;> rfl

theorem InStep.setLevel (h : w.InStep) (number : Nat) (level : Int) :
    (w.setLevel number level).InStep where
  live i hi := by
    rw [Wiring.setLevel, List.length_modify]
    exact h.live i hi
  once := h.once
  mem_iff owner path i := by
    refine (h.mem_iff owner path i).trans (and_congr_right fun _ => ?_)
    rw [getElem?_setLevel]
    cases w.made[i]? with
    | none => simp
    | some handler => by_cases hi : number = i <;> simp [hi]
  paths := h.paths

theorem mem_maps_add (w : Wiring) (h : Handler) (i : Nat) :
    (path, i) ∈ (w.add h).maps owner ↔
      (path, i) ∈ w.maps owner ∨ owner = h.owner ∧ path = h.path ∧ i = w.made.length := by
  by_cases howner : owner = h.owner
  · subst howner
    simp [add, Prod.ext_iff]
  · simp [add, howner]

theorem InStep.add {h : Handler} (hw : w.InStep) (hnew : ∀ i, (h.path, i) ∉ w.maps h.owner) :
    (w.add h).InStep where
  live i hi := by
    show i < (w.made ++ [h]).length
    rw [List.length_append, List.length_singleton]
    rcases List.mem_append.1 hi with hi | hi
    · exact Nat.lt_succ_of_lt (hw.live i hi)
    · rw [List.mem_singleton.1 hi]
      exact Nat.lt_succ_self _
  once := by
    refine List.nodup_append.2 ⟨hw.once, List.nodup_singleton _, ?_⟩
    rintro i hi _ hj rfl
    rw [List.mem_singleton.1 hj] at hi
    exact Nat.lt_irrefl _ (hw.live _ hi)
  mem_iff owner path i := by
    rw [mem_maps_add, hw.mem_iff]
    show _ ↔ i ∈ w.attached ++ [w.made.length] ∧ ∃ g, (w.made ++ [h])[i]? = some g ∧ _
    by_cases hi : i = w.made.length
    · -- the number of the new handler has not been in use
      have hfree : w.made.length ∉ w.attached := fun hmem => Nat.lt_irrefl _ (hw.live _ hmem)
      subst hi
      simp [hfree, eq_comm]
    · have hold : i ∈ w.attached → (w.made ++ [h])[i]? = w.made[i]? := fun hmem =>
        List.getElem?_append_left (hw.live i hmem)
      constructor
      · rintro (⟨hmem, hg⟩ | ⟨-, -, heq⟩)
        · exact ⟨List.mem_append_left _ hmem, by rwa [hold hmem]⟩
        · exact absurd heq hi
      · rintro ⟨hmem, hg⟩
        have hmem' : i ∈ w.attached := by simpa [hi] using hmem
        exact Or.inl ⟨hmem', by rwa [hold hmem'] at hg⟩
  paths owner := by
    by_cases howner : owner = h.owner
    · subst howner
      show ((Function.update w.maps h.owner _ h.owner).map (·.1)).Nodup
      rw [Function.update_self, List.map_append, List.map_singleton]
      refine List.nodup_append.2 ⟨hw.paths _, List.nodup_singleton _, ?_⟩
      rintro path hpath _ hlast rfl
      obtain ⟨e, he, rfl⟩ := List.mem_map.1 hpath
      have hpath : e.1 = h.path := List.mem_singleton.1 hlast
      exact hnew e.2 (by rwa [← hpath])
    · show ((Function.update w.maps h.owner _ owner).map (·.1)).Nodup
      rw [Function.update_of_ne howner]
      exact hw.paths owner

/-- To take numbers out of a list without repetition one by one is to leave them all out. -/
theorem foldl_erase {entries : List (PathName × Nat)} {numbers : List Nat} (h : numbers.Nodup) :
    entries.foldl (fun numbers e => numbers.erase e.2) numbers
      = numbers.filter fun i => i ∉ entries.map (·.2) := by
  induction entries generalizing numbers with
  | nil => simp
  | cons e rest ih =>
    rw [List.foldl_cons, ih (h.erase _), h.erase_eq_filter, List.filter_filter]
    refine List.filter_congr fun i _ => ?_
    rw [Bool.eq_iff_iff, List.map_cons]
    simp only [Bool.and_eq_true, decide_eq_true_eq, bne_iff_ne, List.mem_cons, not_or]
    exact and_comm

theorem InStep.attached_close (hw : w.InStep) (owner : Nat) :
    (w.close owner).attached = w.attached.filter fun i => i ∉ (w.maps owner).map (·.2) :=
  foldl_erase hw.once

/-- A handler that is attached is in the map of its own engine. -/
theorem InStep.mem_numbers_iff (hw : w.InStep) {i : Nat} {h : Handler} (hi : i ∈ w.attached)
    (hmade : w.made[i]? = some h) : i ∈ (w.maps owner).map (·.2) ↔ h.owner = owner := by
  constructor
  · intro hmem
    obtain ⟨⟨path, _⟩, he, rfl⟩ := List.mem_map.1 hmem
    obtain ⟨-, g, hg, rfl, -⟩ := (hw.mem_iff _ _ _).1 he
    rw [hmade, Option.some.injEq] at hg
    rw [hg]
  · rintro rfl
    exact List.mem_map.2 ⟨(h.path, i), (hw.mem_iff _ _ _).2 ⟨hi, h, hmade, rfl, rfl⟩, rfl⟩

theorem InStep.close (hw : w.InStep) (owner : Nat) : (w.close owner).InStep where
  live i hi := by
    rw [hw.attached_close] at hi
    exact hw.live i (List.mem_of_mem_filter hi)
  once := by
    rw [hw.attached_close]
    exact hw.once.filter _
  mem_iff other path i := by
    have hattached : i ∈ (w.close owner).attached ↔ i ∈ w.attached ∧
        i ∉ (w.maps owner).map (·.2) := by
      rw [hw.attached_close, List.mem_filter, decide_eq_true_eq]
    rw [hattached]
    show (path, i) ∈ Function.update w.maps owner [] other ↔ _ ∧ ∃ h, w.made[i]? = some h ∧ _
    by_cases hother : other = owner
    · subst hother
      rw [Function.update_self]
      refine iff_of_false List.not_mem_nil ?_
      rintro ⟨⟨hmem, hout⟩, h, hmade, howner, -⟩
      exact hout ((hw.mem_numbers_iff hmem hmade).2 howner)
    · rw [Function.update_of_ne hother, hw.mem_iff]
      constructor
      · rintro ⟨hmem, h, hmade, rfl, hpath⟩
        exact ⟨⟨hmem, fun hout => hother ((hw.mem_numbers_iff hmem hmade).1 hout)⟩, h, hmade,
          rfl, hpath⟩
      · rintro ⟨⟨hmem, -⟩, hrest⟩
        exact ⟨hmem, hrest⟩
  paths other := by
    show ((Function.update w.maps owner [] other).map (·.1)).Nodup
    by_cases hother : other = owner
    · subst hother
      rw [Function.update_self]
      exact List.nodup_nil
    · rw [Function.update_of_ne hother]
      exact hw.paths other

/-! ## What is attached -/

theorem InStep.isFor_iff (hw : w.InStep) {i : Nat} {h : Handler} (hi : i ∈ w.attached)
    (hmade : w.made[i]? = some h) :
    Logging.isFor owner path h = true ↔ (path, i) ∈ w.maps owner := by
  rw [hw.mem_iff, Logging.isFor, Bool.and_eq_true, beq_iff_eq, beq_iff_eq]
  constructor
  · rintro ⟨howner, hpath⟩
    exact ⟨hi, h, hmade, howner, hpath⟩
  · rintro ⟨-, g, hg, howner, hpath⟩
    rw [hmade, Option.some.injEq] at hg
    exact hg ▸ ⟨howner, hpath⟩

/-- An engine has a handler for a path just if one is in its map. -/
theorem InStep.any_isFor (hw : w.InStep) (owner : Nat) (path : PathName) :
    w.view.handlers.any (Logging.isFor owner path) = true ↔ ∃ i, (path, i) ∈ w.maps owner := by
  rw [List.any_eq_true]
  constructor
  · rintro ⟨h, hmem, hfor⟩
    obtain ⟨i, hi, hmade⟩ := List.mem_filterMap.1 hmem
    exact ⟨i, (hw.isFor_iff hi hmade).1 hfor⟩
  · rintro ⟨i, hmem⟩
    obtain ⟨hi, h, hmade, -⟩ := (hw.mem_iff _ _ _).1 hmem
    exact ⟨h, List.mem_filterMap.2 ⟨i, hi, hmade⟩, (hw.isFor_iff hi hmade).2 hmem⟩

theorem InStep.view_setLevel (hw : w.InStep) (hmem : (path, number) ∈ w.maps owner) (level : Int) :
    (w.setLevel number level).view = w.view.relevel owner path level := by
  have hhandlers : w.attached.filterMap (fun i => (w.setLevel number level).made[i]?)
      = (w.attached.filterMap fun i => w.made[i]?).map fun h =>
          if Logging.isFor owner path h then { h with level := level } else h := by
    rw [List.map_filterMap]
    refine List.filterMap_congr fun i hi => ?_
    rw [getElem?_setLevel]
    cases hmade : w.made[i]? with
    | none => rfl
    | some h =>
      have hiff : number = i ↔ Logging.isFor owner path h = true := by
        rw [hw.isFor_iff hi hmade]
        exact ⟨fun heq => heq ▸ hmem, hw.unique hmem⟩
      simp only [Option.map_some, if_congr hiff rfl rfl]
  show Logging.mk _ _ = Logging.mk _ _
  exact congrArg _ hhandlers

theorem InStep.view_add (hw : w.InStep) (h : Handler) :
    (w.add h).view = { w.view with handlers := w.view.handlers ++ [h] } := by
  have hold : w.attached.filterMap (fun i => (w.made ++ [h])[i]?)
      = w.attached.filterMap fun i => w.made[i]? :=
    List.filterMap_congr fun i hi => List.getElem?_append_left (hw.live i hi)
  have hhandlers : (w.attached ++ [w.made.length]).filterMap (fun i => (w.made ++ [h])[i]?)
      = (w.attached.filterMap fun i => w.made[i]?) ++ [h] := by
    rw [List.filterMap_append, hold]
    simp
  show Logging.mk _ _ = Logging.mk _ _
  exact congrArg _ hhandlers

theorem InStep.view_close (hw : w.InStep) (owner : Nat) :
    (w.close owner).view = w.view.close owner := by
  have hhandlers : (w.close owner).attached.filterMap (fun i => w.made[i]?)
      = (w.attached.filterMap fun i => w.made[i]?).filter fun h => h.owner != owner := by
    rw [hw.attached_close, List.filterMap_filter, List.filter_filterMap]
    refine List.filterMap_congr fun i hi => ?_
    cases hmade : w.made[i]? with
    | none => simp
    | some h =>
      have hiff : i ∈ (w.maps owner).map (·.2) ↔ h.owner = owner := hw.mem_numbers_iff hi hmade
      by_cases howner : h.owner = owner
      · simp [hiff.2 howner, Option.filter, howner]
      · have hout : i ∉ (w.maps owner).map (·.2) := fun hmem => howner (hiff.1 hmem)
        simp [hout, Option.filter, howner]
  show Logging.mk _ _ = Logging.mk _ _
  exact congrArg _ hhandlers

/-! ## What a call does -/

/-- The number that the map of an engine has for a path is the one that stands in it. -/
theorem find?_maps_eq_none_iff (w : Wiring) (owner : Nat) (path : PathName) :
    (w.maps owner).find? (fun e => e.1 = path) = none ↔ ∀ i, (path, i) ∉ w.maps owner := by
  rw [List.find?_eq_none]
  constructor
  · intro h i hmem
    exact h _ hmem (decide_eq_true rfl)
  · rintro h ⟨path', i⟩ he heq
    rw [decide_eq_true_eq] at heq
    exact h i (heq ▸ he)

theorem mem_of_find?_maps {w : Wiring} {owner : Nat} {path : PathName} {e : PathName × Nat}
    (h : (w.maps owner).find? (fun e => e.1 = path) = some e) : (path, e.2) ∈ w.maps owner := by
  have hpath : e.1 = path := by simpa using List.find?_some h
  rw [← hpath]
  exact List.mem_of_find?_eq_some h

theorem InStep.view_attach (hw : w.InStep) (files : Files) (owner : Nat) (level : Int)
    (path : Value) : (w.attach files owner level path).map view
      = (w.view.attach files owner level path).map (·.1) := by
  unfold attach Logging.attach
  cases Logging.pathOf path with
  | error fault => rfl
  | ok name =>
    have hany := hw.any_isFor owner name
    simp only [bind, Except.bind]
    cases hfind : (w.maps owner).find? fun e => e.1 = name with
    | some e =>
      have hmem := mem_of_find?_maps hfind
      rw [if_pos (hany.2 ⟨e.2, hmem⟩)]
      exact congrArg Except.ok (hw.view_setLevel hmem level)
    | none =>
      have hnew := (find?_maps_eq_none_iff w owner name).1 hfind
      rw [if_neg fun h => (hany.1 h).elim hnew]
      cases Logging.openFile files name with
      | error fault => rfl
      | ok opened => exact congrArg Except.ok (hw.view_add _)

/-- **A call has the outcome that it has on `Logging`, and attaches the same handlers.** -/
theorem InStep.view_step (hw : w.InStep) (s : Step) :
    (w.step s).1 = (w.view.step s).1 ∧ (w.step s).2.view = (w.view.step s).2 := by
  cases s with
  | close owner => exact ⟨rfl, hw.view_close owner⟩
  | configure owner level path contents files =>
    show (w.configure files contents owner level path).1
        = (w.view.configure files contents owner level path).1 ∧
      (w.configure files contents owner level path).2.view
        = (w.view.configure files contents owner level path).2.1
    unfold configure Logging.configure
    cases Logging.levelFrom contents level with
    | error fault => exact ⟨rfl, rfl⟩
    | ok n =>
      have hattach := (hw.withRootLevel n).view_attach files owner n path
      dsimp only
      split
      · have hview : view { w with rootLevel := n } = { w.view with rootLevel := n } := rfl
        rw [hview] at hattach
        cases hleft : attach { w with rootLevel := n } files owner n path with
        | error fault =>
          cases hright : Logging.attach { w.view with rootLevel := n } files owner n path with
          | error other =>
            rw [hleft, hright] at hattach
            exact ⟨congrArg Except.error (Except.error.inj hattach), rfl⟩
          | ok result => simp [hleft, hright, Except.map] at hattach
        | ok w' =>
          cases hright : Logging.attach { w.view with rootLevel := n } files owner n path with
          | error fault => simp [hleft, hright, Except.map] at hattach
          | ok result =>
            rw [hleft, hright] at hattach
            exact ⟨rfl, Except.ok.inj hattach⟩
      · exact ⟨rfl, rfl⟩

/-- What configuring can do. -/
inductive Configures (w : Wiring) (owner : Nat) (level path : Value) (contents : Nat → Bytes) :
    Except Fault Unit × Wiring → Prop
  | invalid (fault : Fault) (hlevel : Logging.levelFrom contents level = .error fault) :
    Configures w owner level path contents (.error fault, w)
  | pathless (n : Int) (hlevel : Logging.levelFrom contents level = .ok n)
      (hpath : path.holds contents = false) :
    Configures w owner level path contents (.ok (), { w with rootLevel := n })
  | refused (n : Int) (fault : Fault) (hlevel : Logging.levelFrom contents level = .ok n) :
    Configures w owner level path contents (.error fault, { w with rootLevel := n })
  | relevelled (n : Int) (name : PathName) (number : Nat)
      (hlevel : Logging.levelFrom contents level = .ok n) (hpath : path.holds contents = true)
      (hname : Logging.pathOf path = .ok name) (hmem : (name, number) ∈ w.maps owner) :
    Configures w owner level path contents (.ok (), setLevel { w with rootLevel := n } number n)
  | attached (n : Int) (name : PathName) (route : Route)
      (hlevel : Logging.levelFrom contents level = .ok n) (hpath : path.holds contents = true)
      (hname : Logging.pathOf path = .ok name) (hnew : ∀ i, (name, i) ∉ w.maps owner) :
    Configures w owner level path contents
      (.ok (), add { w with rootLevel := n } ⟨owner, name, route, n⟩)

theorem configures_configure (w : Wiring) (files : Files) (contents : Nat → Bytes) (owner : Nat)
    (level path : Value) :
    Configures w owner level path contents (w.configure files contents owner level path) := by
  unfold configure
  cases hlevel : Logging.levelFrom contents level with
  | error fault => exact .invalid fault hlevel
  | ok n =>
    dsimp only
    cases hpath : path.holds contents with
    | false => exact .pathless n hlevel hpath
    | true =>
      rw [if_pos rfl]
      unfold attach
      cases hname : Logging.pathOf path with
      | error fault => exact .refused n fault hlevel
      | ok name =>
        simp only [bind, Except.bind]
        cases hfind : (w.maps owner).find? fun e => e.1 = name with
        | some e => exact .relevelled n name e.2 hlevel hpath hname (mem_of_find?_maps hfind)
        | none =>
          have hnew := (find?_maps_eq_none_iff w owner name).1 hfind
          cases Logging.openFile files name with
          | error fault => exact .refused n fault hlevel
          | ok opened => exact .attached n name _ hlevel hpath hname hnew

/-- **The books stay in step**, whatever is called and however it ends. -/
theorem InStep.step (hw : w.InStep) (s : Step) : (w.step s).2.InStep := by
  cases s with
  | close owner => exact hw.close owner
  | configure owner level path contents files =>
    show (w.configure files contents owner level path).2.InStep
    generalize hresult : w.configure files contents owner level path = result
    cases hresult ▸ configures_configure w files contents owner level path with
    | invalid => exact hw
    | pathless n => exact hw.withRootLevel n
    | refused n => exact hw.withRootLevel n
    | relevelled n name number => exact (hw.withRootLevel n).setLevel number n
    | attached n name route _ _ _ hnew => exact (hw.withRootLevel n).add hnew

end

end Wiring

end Octets.Log
