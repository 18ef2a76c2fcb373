import Octets.Proofs.Transform.Refusal

/-!
# Transforms one after the other

`Transform.inTurn` applies transforms one after the other, each in place or not as it is asked.
`Transform.Makes` says what they make of the bytes of a value, whichever of them work in place.

* `Makes.cons` — a transform, and what is made of the buffer that it gives.
* `makes_of_effects` — transforms of this library make what their effects come to in turn.
* `Makes.always` — if the first of them takes every byte string, in place or not, so do all in turn.
-/

namespace Octets

open Octets.Random (Generator)

namespace Transform

/-- Applies transforms one after the other, the first to the value and each of the others to the
result of the one before it. With each of them stands whether it works in place. -/
def inTurn : List (Transform × Bool) → Value → Action Value
  | [], v => return v
  | (t, inPlace) :: rest, v => do
    let ref ← t.apply v inPlace
    inTurn rest (.buffer ref)

/-- In turn the transforms make the bytes `out` of the value, and leave the generators `gs`. It does
not matter which of them work in place; only the first cannot on a value that cannot be
overwritten. -/
def Makes (ts : List Transform) (s : Store) (v : Value) (out : Bytes) (gs : List Generator) :
    Prop :=
  ∀ modes : List Bool, modes.length = ts.length → ¬ v.IsFixed (modes.headD false) →
    ∃ w s', (inTurn (ts.zip modes) v).outcome s = (.ok w, s') ∧ s'.Holds w out ∧ s'.generators = gs

/-- In turn the transforms make the bytes `out` of the value and leave the generators, whichever of
them work in place, be the value a buffer or not. -/
def AlwaysMakes (ts : List Transform) (s : Store) (v : Value) (out : Bytes) : Prop :=
  ∀ modes : List Bool, modes.length = ts.length →
    ∃ w s', (inTurn (ts.zip modes) v).outcome s = (.ok w, s') ∧ s'.Holds w out ∧
      s'.generators = s.generators

/-- Does the transform take every byte string in place as well? These make a new buffer, or have
nothing to write. -/
def takesFixed : Transform → Bool
  | shift .. => true
  | concat _ => true
  | sort (some _) => true
  | copy .. => true
  | resize _ => true
  | _ => false

section

variable {t : Transform} {ts : List Transform} {s : Store} {v : Value} {bs mid out : Bytes}
  {gs gs' : List Generator}

theorem not_isFixed_buffer (ref : Nat) (inPlace : Bool) : ¬ (Value.buffer ref).IsFixed inPlace :=
  fun h => h.2 ref rfl

theorem exists_buffer_of_not_isFixed {inPlace : Bool} (h : ¬ v.IsFixed inPlace) :
    inPlace = true → ∃ ref, v = .buffer ref := by
  intro hplace
  by_contra hnone
  exact h ⟨hplace, fun ref hv => hnone ⟨ref, hv⟩⟩

theorem makes_nil (hv : s.Holds v bs) : Makes [] s v bs s.generators :=
  fun _ _ _ => ⟨v, s, rfl, hv, rfl⟩

/-- What one transform makes it gives as a buffer. -/
theorem makes_singleton_iff :
    Makes [t] s v out gs ↔
      ∀ inPlace, ¬ v.IsFixed inPlace →
        ∃ ref s', (t.apply v inPlace).outcome s = (.ok ref, s') ∧ s'.Holds (.buffer ref) out ∧
          s'.generators = gs := by
  constructor
  · intro h inPlace hfixed
    obtain ⟨w, s', hrun, hw, hgs⟩ := h [inPlace] rfl hfixed
    obtain ⟨ref, s₁, hfirst, hrest⟩ := Action.ok_of_outcome_bind hrun
    cases hrest
    exact ⟨ref, s', hfirst, hw, hgs⟩
  · intro h modes hlength hfixed
    obtain ⟨inPlace, rfl⟩ := List.length_eq_one_iff.1 hlength
    obtain ⟨ref, s', hrun, hw, hgs⟩ := h inPlace hfixed
    refine ⟨.buffer ref, s', ?_, hw, hgs⟩
    simp [inTurn, hrun]

/-- A transform, and what the others make of the buffer that it gives. -/
theorem Makes.cons (h : Makes [t] s v mid gs)
    (hrest : ∀ s' ref, s'.Holds (.buffer ref) mid → s'.generators = gs →
      Makes ts s' (.buffer ref) out gs') :
    Makes (t :: ts) s v out gs' := by
  intro modes hlength hfixed
  obtain ⟨inPlace, modes, rfl⟩ := List.exists_cons_of_length_eq_add_one hlength
  obtain ⟨ref, s₁, hrun, hheld, hgs⟩ := makes_singleton_iff.1 h inPlace hfixed
  obtain ⟨w, s', hothers, hw, hgs'⟩ :=
    hrest s₁ ref hheld hgs modes (Nat.succ.inj hlength) (not_isFixed_buffer ref _)
  refine ⟨w, s', ?_, hw, hgs'⟩
  simp [inTurn, hrun, hothers]

theorem makes_of_effect (ht : t.IsOwn) (hv : s.Holds v bs)
    (h : t.effect bs s.generators = .ok (out, gs)) : Makes [t] s v out gs := by
  refine makes_singleton_iff.2 fun inPlace hfixed => ?_
  obtain ⟨ref, s', hdeliver, hheld, hgs, -⟩ :=
    exists_deliver hv inPlace (exists_buffer_of_not_isFixed hfixed) t out gs
  exact ⟨ref, s', by rw [outcome_apply ht hv.asBytes?, result_of_ok h, hdeliver], hheld, hgs⟩

/-- What is made is one. -/
theorem Makes.unique {out' : Bytes} (h : Makes ts s v out gs) (h' : Makes ts s v out' gs') :
    out = out' ∧ gs = gs' := by
  have hcopies : ¬ v.IsFixed ((List.replicate ts.length false).headD false) := by
    rintro ⟨hplace, -⟩
    cases ts <;> cases hplace
  obtain ⟨w, s', hrun, hw, rfl⟩ := h (List.replicate ts.length false) (by simp) hcopies
  obtain ⟨w', s'', hrun', hw', rfl⟩ := h' (List.replicate ts.length false) (by simp) hcopies
  obtain ⟨⟨rfl⟩, rfl⟩ := Prod.mk.inj (hrun.symm.trans hrun')
  exact ⟨Option.some.inj (hw.asBytes?.symm.trans hw'.asBytes?), rfl⟩

/-- The effects of transforms in turn. -/
def effectInTurn (ts : List Transform) (bs : Bytes) (gs : List Generator) :
    Except Fault (Bytes × List Generator) :=
  ts.foldlM (fun made t => t.effect made.1 made.2) (bs, gs)

theorem effectInTurn_nil (bs : Bytes) (gs : List Generator) :
    effectInTurn [] bs gs = .ok (bs, gs) := rfl

theorem effectInTurn_cons (h : t.effect bs gs = .ok (mid, gs')) :
    effectInTurn (t :: ts) bs gs = effectInTurn ts mid gs' := by
  rw [effectInTurn, List.foldlM_cons, h]
  rfl

/-- **Transforms of this library make what their effects come to in turn.** -/
theorem makes_of_effects (hts : ∀ t ∈ ts, t.IsOwn) (hv : s.Holds v bs)
    (h : effectInTurn ts bs s.generators = .ok (out, gs)) : Makes ts s v out gs := by
  induction ts generalizing s v bs with
  | nil =>
    obtain ⟨rfl, rfl⟩ := Prod.mk.inj (Except.ok.inj h)
    exact makes_nil hv
  | cons t rest ih =>
    obtain ⟨ht, hrest⟩ := List.forall_mem_cons.1 hts
    rw [effectInTurn, List.foldlM_cons] at h
    obtain ⟨⟨mid, gs₁⟩, heffect, h⟩ := ok_of_bind h
    refine (makes_of_effect ht hv heffect).cons fun s' ref hheld hgs => ?_
    subst hgs
    exact ih hrest hheld h

/-! ### Byte strings of every kind -/

/-- Of these only a resize reuses a buffer. -/
theorem kind?_of_takesFixed {length : Nat} (htakes : t.takesFixed = true)
    (hreuses : t.reuses length = true) : t.kind? = some .resize := by
  cases t with
  | sort comparator => cases comparator <;> simp [takesFixed, reuses] at htakes hreuses
  | resize size => rfl
  | _ => simp [takesFixed, reuses] at htakes hreuses

/-- What is no buffer is copied, in place or not. -/
theorem outcome_apply_of_takesFixed (ht : t.IsOwn) (htakes : t.takesFixed = true)
    (hv : s.Holds v bs) (hfixed : ∀ ref, v ≠ .buffer ref) :
    (t.apply v true).outcome s = (t.apply v false).outcome s := by
  rw [outcome_apply ht hv.asBytes?, outcome_apply ht hv.asBytes?]
  cases heffect : t.effect bs s.generators with
  | error fault => rw [result_of_error heffect, result_of_error heffect]
  | ok made =>
    obtain ⟨out, gs⟩ := made
    have hcopied : t.deliver v false bs.length out gs s
        = (.ok s.buffers.length, { (s.add out).2 with generators := gs }) :=
          deliver_of_not_reuses rfl
    rw [result_of_ok heffect, result_of_ok heffect, hcopied]
    cases hreuses : t.reuses bs.length with
    | false => rw [deliver_of_not_reuses (by rw [hreuses, Bool.and_false])]
    | true =>
      rw [deliver_of_not_buffer hfixed hreuses, kind?_of_takesFixed htakes hreuses]
      rfl

/-- **If the first transform takes every byte string, so do all in turn.** -/
theorem Makes.always (h : Makes (t :: ts) s v out s.generators) (ht : t.IsOwn)
    (htakes : t.takesFixed = true) (hv : s.Holds v bs) : AlwaysMakes (t :: ts) s v out := by
  intro modes hlength
  obtain ⟨inPlace, modes, rfl⟩ := List.exists_cons_of_length_eq_add_one hlength
  by_cases hfixed : v.IsFixed inPlace
  · obtain ⟨rfl, hbuffer⟩ := hfixed
    -- as if the first one had not been asked to work in place
    obtain ⟨w, s', hrun, hw, hgs⟩ := h (false :: modes) hlength (by simp [Value.IsFixed])
    refine ⟨w, s', ?_, hw, hgs⟩
    rw [← hrun, List.zip_cons_cons, List.zip_cons_cons, inTurn, inTurn, Action.outcome_bind,
      Action.outcome_bind, outcome_apply_of_takesFixed ht htakes hv hbuffer]
  · exact h (inPlace :: modes) hlength hfixed

/-- Transforms of this library, the first of which takes every byte string. -/
theorem alwaysMakes_of_effects (hts : ∀ u ∈ t :: ts, u.IsOwn) (htakes : t.takesFixed = true)
    (hv : s.Holds v bs) (h : effectInTurn (t :: ts) bs s.generators = .ok (out, s.generators)) :
    AlwaysMakes (t :: ts) s v out :=
  (makes_of_effects hts hv h).always (hts t List.mem_cons_self) htakes hv

end

end Transform

end Octets
