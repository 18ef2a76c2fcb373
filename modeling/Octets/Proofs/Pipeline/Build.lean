import Octets.Pipeline
import Octets.Proofs.Transform.Effect

/-!
# What building leaves

A transform is built before anything is applied. Building reads the store and may add generators for
seeds; it writes no buffer and enters nothing into the journal (`Store.Extends`).

* `Registry.extends_build`, `Pipeline.extends_build` — building extends the store, also when it
  fails.
* `Registry.isOwn_of_build`, `Pipeline.isOwn_of_build` — a registry of the kinds of this library
  builds transforms of this library.
-/

namespace Octets

/-! ## Extensions of a store -/

namespace Store

/-- The later store is the earlier one with more generators. -/
def Extends (s s' : Store) : Prop :=
  ∃ gs, s' = { s with generators := s.generators ++ gs }

variable {s s' s'' : Store}

theorem Extends.refl (s : Store) : s.Extends s :=
  ⟨[], by simp⟩

theorem Extends.trans (h : s.Extends s') (h' : s'.Extends s'') : s.Extends s'' := by
  obtain ⟨gs, rfl⟩ := h
  obtain ⟨gs', rfl⟩ := h'
  exact ⟨gs ++ gs', by simp⟩

theorem Extends.buffers (h : s.Extends s') : s'.buffers = s.buffers := by
  obtain ⟨gs, rfl⟩ := h
  rfl

theorem Extends.journal (h : s.Extends s') : s'.journal = s.journal := by
  obtain ⟨gs, rfl⟩ := h
  rfl

theorem Extends.bytes (h : s.Extends s') : s'.bytes = s.bytes := by
  obtain ⟨gs, rfl⟩ := h
  rfl

/-- More generators change no byte string. -/
theorem Extends.holds {v : Value} {bs : Bytes} (h : s.Extends s') (hv : s.Holds v bs) :
    s'.Holds v bs :=
  ⟨by rw [h.bytes]; exact hv.asBytes?, by rw [h.buffers]; exact hv.isLive⟩

theorem extends_addGenerator (s : Store) (g : Random.Generator) :
    s.Extends (s.addGenerator g).2 :=
  ⟨[g], rfl⟩

end Store

namespace Action

variable {α β : Type}

/-- The action at most adds generators to the store, whether it succeeds or not. -/
def Extends (action : Action α) : Prop := ∀ s : Store, s.Extends (action.outcome s).2

theorem extends_pure (a : α) : Extends (pure a) :=
  Store.Extends.refl

theorem extends_fail (fault : Fault) : Extends (fail fault : Action α) :=
  Store.Extends.refl

theorem extends_reading (f : (Nat → Bytes) → Except Fault α) : Extends (reading f) := by
  intro s
  rw [outcome_reading]
  exact .refl s

theorem extends_get : Extends (get : Action Store) :=
  Store.Extends.refl

theorem Extends.bind {x : Action α} {f : α → Action β} (hx : x.Extends) (hf : ∀ a, (f a).Extends) :
    (x >>= f).Extends := by
  intro s
  have hs := hx s
  rw [outcome_bind]
  rcases hrun : x.outcome s with ⟨_ | a, s'⟩ <;> rw [hrun] at hs
  · exact hs
  · exact hs.trans (hf a s')

/-- A composition that succeeds does so by two parts that succeed. -/
theorem ok_of_outcome_bind {x : Action α} {f : α → Action β} {s s'' : Store} {b : β}
    (h : (x >>= f).outcome s = (.ok b, s'')) :
    ∃ a s', x.outcome s = (.ok a, s') ∧ (f a).outcome s' = (.ok b, s'') := by
  rw [outcome_bind] at h
  rcases hx : x.outcome s with ⟨_ | a, s'⟩
  · simp [hx] at h
  · rw [hx] at h
    exact ⟨a, s', rfl, h⟩

theorem ok_of_outcome_reading {f : (Nat → Bytes) → Except Fault α} {s s' : Store} {a : α}
    (h : (reading f).outcome s = (.ok a, s')) : f s.bytes = .ok a ∧ s' = s := by
  rw [outcome_reading, Prod.mk.injEq] at h
  exact ⟨h.1, h.2.symm⟩

end Action

/-- A chain of checks that succeeds does so by two parts that succeed. -/
theorem ok_of_bind {α β : Type} {x : Except Fault α} {f : α → Except Fault β} {b : β}
    (h : (x >>= f) = .ok b) : ∃ a, x = .ok a ∧ f a = .ok b := by
  cases x with
  | error fault => cases h
  | ok a => exact ⟨a, rfl, h⟩

/-! ## Kinds -/

namespace Transform

variable {contents : Nat → Bytes} {t : Transform}

theorem isOwn_of_kind? {k : Kind} (h : t.kind? = some k) : t.IsOwn := by
  rw [IsOwn, h]
  rfl

theorem kind?_of_makeBitwise {second mode : Value} (h : makeBitwise contents second mode = .ok t) :
    t.kind? = some .bitwise := by
  obtain ⟨_, -, h⟩ := ok_of_bind h
  obtain ⟨_, -, h⟩ := ok_of_bind h
  obtain ⟨_, -, h⟩ := ok_of_bind h
  obtain ⟨_, -, h⟩ := ok_of_bind h
  cases h
  rfl

theorem kind?_of_makeShift {count direction : Value}
    (h : makeShift contents count direction = .ok t) : t.kind? = some .shift := by
  obtain ⟨_, -, h⟩ := ok_of_bind h
  obtain ⟨_, -, h⟩ := ok_of_bind h
  obtain ⟨_, -, h⟩ := ok_of_bind h
  obtain ⟨_, -, h⟩ := ok_of_bind h
  cases h
  rfl

theorem kind?_of_makeConcat {second : Value} (h : makeConcat contents second = .ok t) :
    t.kind? = some .concat := by
  obtain ⟨_, -, h⟩ := ok_of_bind h
  obtain ⟨_, -, h⟩ := ok_of_bind h
  cases h
  rfl

theorem kind?_of_makeSort {comparator : Value} (h : makeSort comparator = .ok t) :
    t.kind? = some .sort := by
  unfold makeSort at h
  split at h
  · cases h
    rfl
  · cases h
    rfl
  · cases h

theorem kind?_of_makeShuffle {rng : Value} (h : makeShuffle rng = .ok t) :
    t.kind? = some .shuffle := by
  unfold makeShuffle at h
  split at h
  · cases h
  · cases h
    rfl
  · cases h

theorem kind?_of_makeCopy {offset length : Value} (h : makeCopy contents offset length = .ok t) :
    t.kind? = some .copy := by
  obtain ⟨_, -, h⟩ := ok_of_bind h
  obtain ⟨_, -, h⟩ := ok_of_bind h
  obtain ⟨_, -, h⟩ := ok_of_bind h
  obtain ⟨_, -, h⟩ := ok_of_bind h
  cases h
  rfl

theorem kind?_of_makeResize {size : Value} (h : makeResize contents size = .ok t) :
    t.kind? = some .resize := by
  obtain ⟨_, -, h⟩ := ok_of_bind h
  obtain ⟨_, -, h⟩ := ok_of_bind h
  cases h
  rfl

end Transform

/-! ## Families -/

namespace Family

theorem extends_shuffleOf (params : Dict) : (shuffleOf params).Extends := by
  simp only [shuffleOf]
  split
  · exact Action.extends_reading _
  split
  · exact Action.extends_fail _
  refine (Action.extends_reading _).bind fun n s => ?_
  simpa using s.extends_addGenerator (.ofSeed n)

theorem kind?_of_shuffleOf {params : Dict} {s s' : Store} {t : Transform}
    (h : (shuffleOf params).outcome s = (.ok t, s')) : t.kind? = some .shuffle := by
  simp only [shuffleOf] at h
  split at h
  · exact Transform.kind?_of_makeShuffle (Action.ok_of_outcome_reading h).1
  split at h
  · cases h
  obtain ⟨n, s₁, -, h⟩ := Action.ok_of_outcome_bind h
  simp only [Action.outcome_bind, Action.outcome_get, Action.outcome_set, Action.outcome_pure,
    Prod.mk.injEq, Except.ok.injEq] at h
  rw [← h.1]
  rfl

theorem extends_ofParams (family : Family) (params : Dict) : (family.ofParams params).Extends := by
  refine (Action.extends_reading _).bind fun _ => ?_
  cases family with
  | plugin p => exact Action.extends_reading _
  | builtin k =>
    cases k with
    | negate => exact Action.extends_pure _
    | reverse => exact Action.extends_pure _
    | sort =>
      dsimp only
      split
      · exact Action.extends_reading _
      · exact Action.extends_get.bind fun _ => Action.extends_pure _
    | shuffle => exact extends_shuffleOf params
    | _ => exact Action.extends_reading _

/-- A family of this library makes transforms of its kind. -/
theorem kind?_of_ofParams {k : Kind} {params : Dict} {s s' : Store} {t : Transform}
    (h : ((builtin k).ofParams params).outcome s = (.ok t, s')) : t.kind? = some k := by
  obtain ⟨_, _, -, h⟩ := Action.ok_of_outcome_bind h
  cases k with
  | bitwise => exact Transform.kind?_of_makeBitwise (Action.ok_of_outcome_reading h).1
  | negate =>
    cases h
    rfl
  | shift => exact Transform.kind?_of_makeShift (Action.ok_of_outcome_reading h).1
  | concat => exact Transform.kind?_of_makeConcat (Action.ok_of_outcome_reading h).1
  | reverse =>
    cases h
    rfl
  | sort =>
    simp only at h
    split at h
    · exact Transform.kind?_of_makeSort (Action.ok_of_outcome_reading h).1
    · obtain ⟨_, _, -, h⟩ := Action.ok_of_outcome_bind h
      cases h
      rfl
  | shuffle => exact kind?_of_shuffleOf h
  | copy => exact Transform.kind?_of_makeCopy (Action.ok_of_outcome_reading h).1
  | resize => exact Transform.kind?_of_makeResize (Action.ok_of_outcome_reading h).1

end Family

/-! ## Registries -/

namespace Registry

/-- Every name is registered with a kind of this library. -/
def IsOwn (r : Registry) : Prop := ∀ entry ∈ r, ∃ k, entry.family = .builtin k

theorem isOwn_builtin : builtin.IsOwn := by
  simp [IsOwn, builtin]

theorem mem_of_lookup {r : Registry} {contents : Nat → Bytes} {name : Value}
    {entry : Registration} (h : r.lookup contents name = .ok entry) : entry ∈ r := by
  unfold lookup at h
  split at h
  · cases h
  · rename_i found _ hfound
    obtain ⟨text, -, hfind⟩ := Option.bind_eq_some_iff.1 hfound
    cases h
    exact List.mem_of_find?_eq_some hfind
  · obtain ⟨_, -, h⟩ := ok_of_bind h
    cases h

/-- **Building a transform only adds generators.** -/
theorem extends_build (r : Registry) (name params : Value) : (r.build name params).Extends :=
  (Action.extends_reading _).bind fun _ =>
    (Action.extends_reading _).bind fun _ => Family.extends_ofParams _ _

/-- What is built is what the family of an entry makes of a dictionary. -/
theorem exists_mem_of_build {r : Registry} {name params : Value} {s s' : Store} {t : Transform}
    (h : (r.build name params).outcome s = (.ok t, s')) :
    ∃ entry ∈ r, ∃ merged s₁, (entry.family.ofParams merged).outcome s₁ = (.ok t, s') := by
  obtain ⟨entry, s₁, hentry, h⟩ := Action.ok_of_outcome_bind h
  obtain ⟨merged, s₂, -, h⟩ := Action.ok_of_outcome_bind h
  exact ⟨entry, mem_of_lookup (Action.ok_of_outcome_reading hentry).1, merged, s₂, h⟩

/-- In a registry of the kinds of this library, it is what one of these makes. -/
theorem exists_ofParams_of_build {r : Registry} (hr : r.IsOwn) {name params : Value} {s s' : Store}
    {t : Transform} (h : (r.build name params).outcome s = (.ok t, s')) :
    ∃ k merged s₁, ((Family.builtin k).ofParams merged).outcome s₁ = (.ok t, s') := by
  obtain ⟨entry, hentry, merged, s₁, h⟩ := exists_mem_of_build h
  obtain ⟨k, hk⟩ := hr entry hentry
  rw [hk] at h
  exact ⟨k, merged, s₁, h⟩

theorem isOwn_of_build {r : Registry} (hr : r.IsOwn) {name params : Value} {s s' : Store}
    {t : Transform} (h : (r.build name params).outcome s = (.ok t, s')) : t.IsOwn := by
  obtain ⟨k, merged, s₁, hmade⟩ := exists_ofParams_of_build hr h
  exact Transform.isOwn_of_kind? (Family.kind?_of_ofParams hmade)

end Registry

/-! ## Pipelines -/

namespace Pipeline

/-- **Building the transforms of a pipeline only adds generators.** -/
theorem extends_build (r : Registry) (steps : List Step) : (build r steps).Extends := by
  induction steps with
  | nil => exact Action.extends_pure _
  | cons step rest ih =>
    exact (r.extends_build step.name step.params).bind fun _ =>
      ih.bind fun _ => Action.extends_pure _

theorem extends_of_build {r : Registry} {steps : List Step} {s s' : Store}
    {result : Except Fault (List (Value × Transform))}
    (h : (build r steps).outcome s = (result, s')) : s.Extends s' := by
  have hext := extends_build r steps s
  rwa [h] at hext

/-- What holds of every transform that the registry builds holds of all that are built for a
pipeline. -/
theorem forall_of_build {r : Registry} {P : Transform → Prop}
    (hP : ∀ {name params s s' t}, (r.build name params).outcome s = (.ok t, s') → P t)
    {steps : List Step} {s s' : Store} {built : List (Value × Transform)}
    (h : (build r steps).outcome s = (.ok built, s')) : ∀ e ∈ built, P e.2 := by
  induction steps generalizing s s' built with
  | nil =>
    cases h
    simp
  | cons step rest ih =>
    obtain ⟨t, s₁, ht, h⟩ := Action.ok_of_outcome_bind h
    obtain ⟨later, s₂, hlater, h⟩ := Action.ok_of_outcome_bind h
    cases h
    intro e he
    rcases List.mem_cons.1 he with rfl | he
    · exact hP ht
    · exact ih hlater e he

theorem isOwn_of_build {r : Registry} (hr : r.IsOwn) {steps : List Step} {s s' : Store}
    {built : List (Value × Transform)} (h : (build r steps).outcome s = (.ok built, s')) :
    ∀ e ∈ built, e.2.IsOwn :=
  forall_of_build (Registry.isOwn_of_build hr) h

/-- The same without the names. -/
theorem isOwn_map {built : List (Value × Transform)} (h : ∀ e ∈ built, e.2.IsOwn) :
    ∀ t ∈ built.map (·.2), t.IsOwn := by
  intro t ht
  obtain ⟨e, he, rfl⟩ := List.mem_map.1 ht
  exact h e he

/-- The transforms that are built are called as the steps are. -/
theorem map_fst_of_build {r : Registry} {steps : List Step} {s s' : Store}
    {built : List (Value × Transform)} (h : (build r steps).outcome s = (.ok built, s')) :
    built.map (·.1) = steps.map (·.name) := by
  induction steps generalizing s s' built with
  | nil =>
    cases h
    rfl
  | cons step rest ih =>
    obtain ⟨t, s₁, -, h⟩ := Action.ok_of_outcome_bind h
    obtain ⟨later, s₂, hlater, h⟩ := Action.ok_of_outcome_bind h
    cases h
    rw [List.map_cons, List.map_cons, ih hlater]

section

variable {r : Registry} {s : Store} {data transforms : Value} {inPlace : Bool} {read : List Step}

theorem outcome_run_of_steps (hnull : data.isNull = false)
    (hsteps : steps s.bytes transforms = .ok read) :
    (run r data transforms inPlace).outcome s
      = (build r read >>= applyAll data inPlace).outcome s := by
  simp only [run, hnull, Bool.false_eq_true, if_false, Action.outcome_bind, Action.outcome_reading,
    hsteps]

/-- A run in which the steps are read and built comes to applying what is built. -/
theorem outcome_run {s₁ : Store} {built : List (Value × Transform)} (hnull : data.isNull = false)
    (hsteps : steps s.bytes transforms = .ok read)
    (hbuilt : (build r read).outcome s = (.ok built, s₁)) :
    (run r data transforms inPlace).outcome s = (applyAll data inPlace built).outcome s₁ := by
  rw [outcome_run_of_steps hnull hsteps, Action.outcome_bind, hbuilt]

end

end Pipeline

end Octets
