import Mathlib.Data.List.Basic
import Octets.Proofs.Pipeline.Build

/-!
# Transforms that have been made

A family of this library makes transforms of its kind, whether from arguments or from parameters,
and nothing else is made by it.

* `length_of_bind` — arguments that are bound give every parameter a value, so a constructor finds
  as many values as it has parameters.
* `outcome_ofArguments_fields` — from its own fields a transform is made again.
* `isMade_iff` — so the transforms that are made are those of the kind.
-/

namespace Octets

/-! ## Bound arguments -/

namespace Parameter

theorem length_of_collect {callee : String} {found : List (Parameter × Option Value)}
    {values : List Value} (h : collect callee found = .ok values) :
    values.length = found.length := by
  simp only [collect] at h
  split at h
  · rename_i hnone
    cases h
    rw [List.isEmpty_iff, List.filterMap_eq_nil_iff] at hnone
    rw [List.length_filterMap_eq_countP, List.countP_eq_length.2, List.length_map]
    -- no parameter is missing, so none of the values is dropped
    intro e he
    have hne := hnone e he
    cases hv : e.2 with
    | none => simp [hv] at hne
    | some v => rfl
  · cases h

theorem length_of_bind {callee : String} {own : Nat} {ps : List Parameter}
    {args values : List Value} (h : bind callee own ps args = .ok values) :
    values.length = ps.length := by
  simp only [bind] at h
  split at h
  · cases h
  · -- a parameter is either found by its place or given by name only
    have hsplit := List.length_eq_countP_add_countP (fun p : Parameter => p.nameOnly) (l := ps)
    simp only [List.countP_eq_length_filter, Bool.not_eq_true, Bool.decide_eq_false] at hsplit
    rw [length_of_collect h]
    simp only [List.length_append, List.length_map, List.length_zipIdx]
    omega

end Parameter

/-! ## Kinds of made transforms -/

namespace Family

/-- A family of this library makes transforms of its kind from arguments. -/
theorem kind?_of_ofArguments {k : Kind} {args : List Value} {s s' : Store} {t : Transform}
    (h : ((builtin k).ofArguments args).outcome s = (.ok t, s')) : t.kind? = some k := by
  unfold ofArguments at h
  obtain ⟨hmade, -⟩ := Action.ok_of_outcome_reading h
  obtain ⟨values, hvalues, hmade⟩ := ok_of_bind hmade
  have hlength := Parameter.length_of_bind hvalues
  cases k with
  | bitwise =>
    obtain ⟨second, mode, rfl⟩ := List.length_eq_two.1 hlength
    exact Transform.kind?_of_makeBitwise hmade
  | negate =>
    cases hmade
    rfl
  | shift =>
    obtain ⟨count, direction, rfl⟩ := List.length_eq_two.1 hlength
    exact Transform.kind?_of_makeShift hmade
  | concat =>
    obtain ⟨second, rfl⟩ := List.length_eq_one_iff.1 hlength
    exact Transform.kind?_of_makeConcat hmade
  | reverse =>
    cases hmade
    rfl
  | sort =>
    obtain ⟨comparator, rfl⟩ := List.length_eq_one_iff.1 hlength
    exact Transform.kind?_of_makeSort hmade
  | shuffle =>
    obtain ⟨rng, rfl⟩ := List.length_eq_one_iff.1 hlength
    exact Transform.kind?_of_makeShuffle hmade
  | copy =>
    obtain ⟨offset, length, rfl⟩ := List.length_eq_two.1 hlength
    exact Transform.kind?_of_makeCopy hmade
  | resize =>
    obtain ⟨size, rfl⟩ := List.length_eq_one_iff.1 hlength
    exact Transform.kind?_of_makeResize hmade

/-- A value that is no dictionary makes nothing; a dictionary counts as parameters. -/
theorem exists_ofParams_of_ofValue {family : Family} {params : Value} {s s' : Store} {t : Transform}
    (h : (family.ofValue params).outcome s = (.ok t, s')) :
    ∃ entries, (family.ofParams entries).outcome s = (.ok t, s') := by
  unfold ofValue at h
  split at h
  · exact ⟨_, h⟩
  · obtain ⟨_, _, -, h⟩ := Action.ok_of_outcome_bind h
    cases h

end Family

/-! ## Made transforms -/

namespace Transform

/-- The transform is what a kind of this library makes, in some store, of the arguments of its
constructor or of a value that holds its parameters. -/
inductive IsMade (k : Kind) (t : Transform) : Prop
  | ofArguments {args : List Value} {s s' : Store}
      (h : ((Family.builtin k).ofArguments args).outcome s = (.ok t, s')) : IsMade k t
  | ofValue {params : Value} {s s' : Store}
      (h : ((Family.builtin k).ofValue params).outcome s = (.ok t, s')) : IsMade k t

theorem IsMade.kind? {k : Kind} {t : Transform} (h : IsMade k t) : t.kind? = some k := by
  cases h with
  | ofArguments h => exact Family.kind?_of_ofArguments h
  | ofValue h =>
    obtain ⟨entries, h⟩ := Family.exists_ofParams_of_ofValue h
    exact Family.kind?_of_ofParams h

theorem IsMade.isOwn {k : Kind} {t : Transform} (h : IsMade k t) : t.IsOwn :=
  isOwn_of_kind? h.kind?

/-- **A constructor takes the fields of a transform as they are.** -/
theorem outcome_ofArguments_fields {k : Kind} {t : Transform} (h : t.kind? = some k) (s : Store) :
    ((Family.builtin k).ofArguments (t.fields.map (·.2))).outcome s = (.ok t, s) := by
  cases t with
  | bitwise second mode => cases h; cases mode <;> rfl
  | shift count direction => cases h; cases direction <;> rfl
  | sort comparator => cases h; cases comparator <;> rfl
  | added p values => cases h
  | _ => cases h; rfl

/-- **The transforms that are made are those of the kind.** -/
theorem isMade_iff {k : Kind} {t : Transform} : IsMade k t ↔ t.kind? = some k :=
  ⟨IsMade.kind?, fun h => .ofArguments (outcome_ofArguments_fields h .empty)⟩

end Transform

end Octets
