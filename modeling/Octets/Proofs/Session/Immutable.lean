import Octets.Proofs.Session.Growth
import Octets.Proofs.Transform.Observed

/-!
# Transforms never change

Whatever happens in a session, a transform that has been made stays what it is: its fields, what it
says of itself, what it is equal to, and what it does to given bytes (`World.Unchanged`). It may
have been made from a buffer; that buffer may be written later, even by the transform itself.

* `unchanged_of_alike` — what a session shows of a transform depends on no more than what all deeds
  keep.
* `isPristine_of_after` — in a world that a run leads to, no field has been overwritten.
* `instance_unchanged` — between any two points of a run.
-/

namespace Octets

open Session

namespace Instance

/-- The transform is one of this library, none of a plugin. -/
def IsOwn (i : Instance) : Prop := ∀ p values, i.transform ≠ .sound (.added p values)

/-- The transform draws from a generator. -/
def Draws (i : Instance) : Prop := ∃ kind ref, i.transform = .sound (.shuffle kind ref)

variable {i : Instance}

theorem IsOwn.comparable (h : i.IsOwn) : i.transform.comparable = true := by
  refine Bool.not_eq_false _ |>.mp fun hfree => ?_
  obtain ⟨p, values, htransform, -⟩ := exists_added_of_not_comparable hfree
  exact h p values htransform

/-- One of this library that has not been overwritten is applied and described as such. -/
theorem IsOwn.exists_sound (h : i.IsOwn) (hpristine : i.IsPristine) :
    ∃ t, i.transform = .sound t ∧ t.IsOwn ∧ i.label = none := by
  obtain ⟨hlabel, t, htransform⟩ := hpristine h.comparable
  refine ⟨t, htransform, ?_, hlabel⟩
  cases t with
  | added p values => exact absurd htransform (h p values)
  | _ => rfl

end Instance

namespace World

/-- Nothing is changed between the two worlds about the transform `i`, which the name stands for in
the earlier one, and `j` in the later one. -/
structure Unchanged (w w' : World) (id : String) (i j : Instance) : Prop where
  serial : j.serial = i.serial
  fields : j.transform.fields = i.transform.fields
  /-- It is the very same, unless a plugin keeps its values to itself. -/
  eq : i.transform.comparable = true → j = i
  /-- It equals the same transforms, from either side. -/
  same : ∀ other k l, find? w.instances other = some k → find? w'.instances other = some l →
    l.serial = k.serial →
    (w'.perform (.same id other)).1 = (w.perform (.same id other)).1 ∧
      (w'.perform (.same other id)).1 = (w.perform (.same other id)).1
  /-- It says the same about itself. -/
  description : i.IsOwn → (w'.perform (.inspect id)).1 = (w.perform (.inspect id)).1
  /-- It gives the same answer to equal bytes in values of one kind. -/
  answer : i.IsOwn → ¬ i.Draws → ∀ v v' bs inPlace, w.store.Holds v bs → w'.store.Holds v' bs →
    v.kind = v'.kind →
    Transform.observed v ((i.apply v inPlace).outcome w.store)
      = Transform.observed v' ((j.apply v' inPlace).outcome w'.store)

section

variable {w w' : World} {id : String} {i j : Instance}

theorem perform_same {other : String} {k : Instance} (hi : find? w.instances id = some i)
    (hk : find? w.instances other = some k) :
    (w.perform (.same id other)).1
      = .ok (.truth (i.serial == k.serial || i.transform.same k.transform)) := by
  simp only [perform, same, withInstance, hi, hk]

theorem perform_inspect (hi : find? w.instances id = some i) :
    (w.perform (.inspect id)).1 = w.account i.transform := by
  simp only [perform, withInstance, hi]

/-- Alike transforms differ in nothing that a session shows. -/
theorem unchanged_of_alike {made : String → Prop} (hgrows : w.Grows w' made)
    (hserial : ∀ id i, find? w.instances id = some i →
      i.serial < w.serial) (hi : find? w.instances id = some i)
    (hj : find? w'.instances id = some j) (halike : i.Alike j) (hpristine : i.IsPristine) :
    w.Unchanged w' id i j where
  serial := halike.serial
  fields := halike.fields
  eq := halike.eq_of_comparable
  same := by
    intro other k l hk hl hkl
    have hother : k.Alike l := by
      obtain ⟨m, hm, hkm | ⟨-, hle⟩⟩ := hgrows.kept hk
      · rw [hl, Option.some.injEq] at hm
        rwa [hm]
      · -- what was made since has another number
        rw [hl, Option.some.injEq] at hm
        have hlt := hserial other k hk
        rw [← hm, hkl] at hle
        exact absurd hlt (Nat.not_lt.2 hle)
    rw [perform_same hi hk, perform_same hj hl, perform_same hk hi, perform_same hl hj,
      halike.same_eq hother, hother.same_eq halike, halike.serial, hother.serial]
    exact ⟨rfl, rfl⟩
  description := by
    intro hown
    obtain ⟨t, htransform, ht, -⟩ := hown.exists_sound hpristine
    rw [perform_inspect hi, perform_inspect hj, halike.eq_of_comparable hown.comparable, htransform]
    simp only [account, Made.describe, Transform.describe_congr ht w'.store.bytes w.store.bytes]
  answer := by
    intro hown hdraws v v' bs inPlace hv hv' hkind
    obtain ⟨t, htransform, ht, hlabel⟩ := hown.exists_sound hpristine
    have hshuffle : t.kind? ≠ some .shuffle := by
      intro hk
      cases t with
      | shuffle kind ref => exact hdraws ⟨kind, ref, htransform⟩
      | _ => cases hk
    have happly : ∀ v, i.apply v inPlace = t.apply v inPlace := by
      intro v
      simp only [Instance.apply, hlabel, htransform, Made.apply]
    rw [halike.eq_of_comparable hown.comparable, happly, happly]
    exact Transform.observed_apply_congr ht hshuffle hv hv' hkind inPlace

end

/-- In a world that a run leads to, every transform was made before and none has been
overwritten. -/
theorem isPristine_of_after {files : Files} {stamp : String} {deeds : List Deed}
    (hplain : ∀ d ∈ deeds, ¬ d.IsForced) {id : String} {i : Instance}
    (hi : find? ((initial files stamp).after deeds).instances id = some i) :
    i.serial < ((initial files stamp).after deeds).serial ∧ i.IsPristine := by
  have hgrows : (initial files stamp).Grows ((initial files stamp).after deeds) fun _ => True :=
    grows_after _ hplain fun _ _ _ _ => trivial
  rcases hgrows.origin id i hi with ⟨j, hj, -⟩ | ⟨-, -, hlt, hpristine⟩
  · cases hj
  · exact ⟨hlt, hpristine⟩

/-- **Transforms are immutable.** Take a transform at any point of a run in which none is
overwritten by force. At any later point its name stands for it still, unless another one has been
made under the name, and nothing about it has changed. If it is one of this library, there is
nothing in it that could be written. -/
theorem instance_unchanged {files : Files} {stamp : String} {earlier later : List Deed}
    {w w' : World} (hplain : ∀ d ∈ earlier ++ later, ¬ d.IsForced)
    (hw : (initial files stamp).after earlier = w) (hw' : w.after later = w') {id : String}
    {i : Instance} (hi : find? w.instances id = some i) :
    i.serial < w.serial ∧ (i.IsOwn → ∀ e ∈ i.transform.fields, e.2.unhashable? = none) ∧
      ∃ j, find? w'.instances id = some j ∧
        (w.Unchanged w' id i j ∨ w.serial ≤ j.serial ∧ ∃ d ∈ later, d.Makes id) := by
  obtain ⟨hearlier, hlater⟩ := List.forall_mem_append.1 hplain
  subst hw hw'
  have hgrows : ((initial files stamp).after earlier).Grows
      (((initial files stamp).after earlier).after later) fun id => ∃ d ∈ later, d.Makes id :=
    grows_after _ hlater fun d hd _ hmakes => ⟨d, hd, hmakes⟩
  obtain ⟨hlt, hpristine⟩ := isPristine_of_after hearlier hi
  refine ⟨hlt, fun hown => ?_, ?_⟩
  · obtain ⟨t, htransform, ht, -⟩ := hown.exists_sound hpristine
    rw [htransform]
    exact Transform.unhashable?_of_mem_fields ht
  · obtain ⟨j, hj, halike | ⟨hmade, hnew⟩⟩ := hgrows.kept hi
    · refine ⟨j, hj, Or.inl (unchanged_of_alike hgrows ?_ hi hj halike hpristine)⟩
      exact fun _ _ hother => (isPristine_of_after hearlier hother).1
    · exact ⟨j, hj, Or.inr ⟨hnew, hmade⟩⟩

/-- A combination with a second buffer. -/
def mask : Instance := ⟨0, .sound (.bitwise [1, 2] .xor), none⟩

/-- The combination is made from a buffer. -/
def masking : List Deed :=
  [.allocate [1, 2], .call (.buffer "data" (.buffer 0)),
    .call (.construct "mask" (.builtin .bitwise) [.buffer 0, .text "xor"])]

/-- The buffer is written, and then combined with what it was when the transform was made. -/
def unmasking : List Deed :=
  [.call (.poke "data" 0 9), .call (.transform "mask" "data" true none)]

/-- The buffer that the transform was made from is overwritten, also by the transform itself; the
transform is what it was. -/
theorem instance_unchanged_mask :
    (((initial ⟨"/", []⟩ "").after masking).after unmasking).store.bytes 0 = [8, 0] ∧
      ((initial ⟨"/", []⟩ "").after masking).Unchanged
        (((initial ⟨"/", []⟩ "").after masking).after unmasking) "mask" mask mask := by
  have hplain : ∀ d ∈ masking ++ unmasking, ¬ d.IsForced := by
    simp [masking, unmasking, Deed.IsForced]
  have hstart : find? ((initial ⟨"/", []⟩ "").after masking).instances "mask" = some mask := by
    rfl
  have hend : find? (((initial ⟨"/", []⟩ "").after masking).after unmasking).instances "mask"
      = some mask := by
    rfl
  refine ⟨rfl, ?_⟩
  obtain ⟨hlt, -, j, hj, hunchanged | ⟨hnew, -⟩⟩ := instance_unchanged hplain rfl rfl hstart
  · rw [hend, Option.some.injEq] at hj
    rwa [← hj] at hunchanged
  · rw [hend, Option.some.injEq] at hj
    rw [← hj] at hnew
    exact absurd hlt (Nat.not_lt.2 hnew)

end World

end Octets
