import Octets.Proofs.Transform.Ranges
import Octets.Proofs.Transform.Reverse

/-!
# Reversing

A reverse mirrors the bytes of a value, over the buffer itself or in a new one.

* `outcome_reverse_copy`, `outcome_reverse_inPlace` — the two modes.
* `exists_reversed` — either way the other values stay as they are.
* `exists_reverseJoined`, `exists_joinReversed` — to reverse what two values are joined to is to
  join them reversed, the second one first.
* `reverse_mirrors` — all of it, and that reversing twice gives back what was there.
-/

namespace Octets

namespace Bytes

theorem isMirror_swapReverse (bs : Bytes) : bs.swapReverse.IsMirror bs :=
  isMirror_iff.2 bs.swapReverse_eq_reverse

theorem swapReverse_swapReverse (bs : Bytes) : bs.swapReverse.swapReverse = bs := by
  rw [swapReverse_eq_reverse, swapReverse_eq_reverse, List.reverse_reverse]

theorem swapReverse_append (bs more : Bytes) :
    (bs ++ more).swapReverse = more.swapReverse ++ bs.swapReverse := by
  simp only [swapReverse_eq_reverse, List.reverse_append]

/-- The loop on the bytes, with every index checked. -/
theorem swapEnds?_toArray (bs : Bytes) :
    Rearrange.swapEnds? bs.toArray = some bs.swapReverse.toArray := by
  rw [Rearrange.swapEnds?_eq, swapReverse]

end Bytes

namespace Transform

/-- Joins two values, and reverses what they are joined to. -/
def reverseJoined (v w : Value) (inPlace : Bool) : Action Value := do
  let whole ← Routine.concat.call [v, w]
  let ref ← reverse.apply whole inPlace
  return .buffer ref

/-- Reverses two values, each in place or not as it is asked, and joins the results the other way
round. -/
def joinReversed (v w : Value) (inPlace inPlace' : Bool) : Action Value := do
  let last ← reverse.apply w inPlace'
  let first ← reverse.apply v inPlace
  Routine.concat.call [.buffer last, .buffer first]

section

variable {s : Store} {v w : Value} {bs more : Bytes} {ref : Nat} {inPlace inPlace' : Bool}

/-! ## The two modes -/

theorem outcome_reverse_copy (hv : s.Holds v bs) :
    (reverse.apply v false).outcome s = (.ok s.buffers.length, (s.add bs.swapReverse).2) := by
  rw [outcome_apply (t := reverse) rfl hv.asBytes?, result_of_ok (t := reverse) rfl,
    deliver_of_not_reuses rfl]
  rfl

theorem outcome_reverse_inPlace (hv : s.Holds (.buffer ref) bs) :
    (reverse.apply (.buffer ref) true).outcome s = (.ok ref, s.overwrite ref bs.swapReverse) := by
  rw [outcome_apply (t := reverse) rfl hv.asBytes?, result_of_ok (t := reverse) rfl,
    deliver_buffer ref rfl]
  rfl

/-- **A reverse leaves the other values as they are.** -/
theorem exists_reversed (hv : s.Holds v bs) (hfixed : ¬ v.IsFixed inPlace) :
    ∃ ref s', (reverse.apply v inPlace).outcome s = (.ok ref, s') ∧
      s'.Holds (.buffer ref) bs.swapReverse ∧
      ∀ w more, s.Holds w more → (inPlace = true → w ≠ v) → s'.Holds w more ∧ w ≠ .buffer ref := by
  cases inPlace with
  | false =>
    refine ⟨_, _, outcome_reverse_copy hv, s.holds_add _, ?_⟩
    intro w more hw _
    refine ⟨hw.of_add _, ?_⟩
    rintro rfl
    exact Nat.lt_irrefl _ (hw.isLive _ rfl)
  | true =>
    obtain ⟨ref, rfl⟩ := exists_buffer_of_not_isFixed hfixed rfl
    refine ⟨ref, _, outcome_reverse_inPlace hv, ?_, ?_⟩
    · exact Store.holds_overwritten (hv.isLive ref rfl) _ s.generators
    · intro w more hw hapart
      exact ⟨hw.of_overwrite (hapart rfl) _, hapart rfl⟩

/-! ## Twice -/

theorem makes_reverse_reverse (hv : s.Holds v bs) :
    Makes [reverse, reverse] s v bs s.generators := by
  refine makes_of_effects (by simp [IsOwn, kind?]) hv ?_
  rw [effectInTurn_cons rfl, effectInTurn_cons rfl, Bytes.swapReverse_swapReverse, effectInTurn_nil]

/-- A buffer that is reversed twice in place is as it was, and so is the store. -/
theorem outcome_reverse_reverse (hv : s.Holds (.buffer ref) bs) :
    (inTurn [(reverse, true), (reverse, true)] (.buffer ref)).outcome s
      = (.ok (.buffer ref), s) := by
  have hheld : (s.overwrite ref bs.swapReverse).Holds (.buffer ref) bs.swapReverse :=
    Store.holds_overwritten (hv.isLive ref rfl) _ s.generators
  have hback : (s.overwrite ref bs.swapReverse).overwrite ref bs.swapReverse.swapReverse = s := by
    rw [s.overwrite_overwrite, Bytes.swapReverse_swapReverse, ← hv.bytes_eq, s.overwrite_bytes]
  simp only [inTurn, Action.outcome_bind, outcome_reverse_inPlace hv,
    outcome_reverse_inPlace hheld, hback]
  rfl

/-! ## Joining -/

theorem exists_concat (hv : s.Holds v bs) (hw : s.Holds w more) :
    ∃ ref s', (Routine.concat.call [v, w]).outcome s = (.ok (.buffer ref), s') ∧
      s'.Holds (.buffer ref) (bs ++ more) := by
  have hjoins := (joins_of_forall₂ (.cons hv (.cons hw .nil))).atOnce
  simpa using hjoins

theorem exists_reverseJoined (hv : s.Holds v bs) (hw : s.Holds w more) (inPlace : Bool) :
    ∃ x s', (reverseJoined v w inPlace).outcome s = (.ok x, s') ∧
      s'.Holds x (bs ++ more).swapReverse := by
  obtain ⟨whole, s₁, hjoined, hheld⟩ := exists_concat hv hw
  obtain ⟨ref, s', hreversed, hresult, -⟩ :=
    exists_reversed hheld (not_isFixed_buffer whole inPlace)
  refine ⟨.buffer ref, s', ?_, hresult⟩
  simp [reverseJoined, hjoined, hreversed]

/-- Unless the second value is overwritten and is the first one as well, both are reversed as they
were. -/
theorem exists_joinReversed (hv : s.Holds v bs) (hw : s.Holds w more) (hfixed : ¬ v.IsFixed inPlace)
    (hfixed' : ¬ w.IsFixed inPlace') (hapart : inPlace' = true → v ≠ w) :
    ∃ x s', (joinReversed v w inPlace inPlace').outcome s = (.ok x, s') ∧
      s'.Holds x (bs ++ more).swapReverse := by
  obtain ⟨last, s₁, hlast, hheld, hkept⟩ := exists_reversed hw hfixed'
  obtain ⟨hv₁, hne⟩ := hkept v bs hv hapart
  obtain ⟨first, s₂, hfirst, hheld', hkept'⟩ := exists_reversed hv₁ hfixed
  -- the first result is still there behind the second
  obtain ⟨hheld₂, -⟩ := hkept' _ _ hheld fun _ => hne.symm
  obtain ⟨ref, s', hjoined, hresult⟩ := exists_concat hheld₂ hheld'
  refine ⟨.buffer ref, s', ?_, ?_⟩
  · simp [joinReversed, hlast, hfirst, hjoined]
  · rw [Bytes.swapReverse_append]
    exact hresult

/-- **A reverse mirrors bytes.** The loop that swaps from both ends uses no index outside of the
bytes, and leaves at each place the byte of the mirrored one. The transform makes a copy of them in
this order, or brings a buffer itself into it. To reverse twice gives the bytes again; in place the
store is as it was. And what two values are joined to is reversed by reversing each of them and
joining the results the other way round; only a buffer that is joined to itself must not be
overwritten before it has been read twice. -/
theorem reverse_mirrors (hv : s.Holds v bs) :
    (Rearrange.swapEnds? bs.toArray = some bs.swapReverse.toArray ∧ bs.swapReverse.IsMirror bs) ∧
    ((reverse.apply v false).outcome s = (.ok s.buffers.length, (s.add bs.swapReverse).2) ∧
      ∀ ref, v = .buffer ref →
        (reverse.apply v true).outcome s = (.ok ref, s.overwrite ref bs.swapReverse)) ∧
    (Makes [reverse, reverse] s v bs s.generators ∧
      ∀ ref, v = .buffer ref →
        (inTurn [(reverse, true), (reverse, true)] v).outcome s = (.ok v, s)) ∧
    ∀ (w : Value) (more : Bytes), s.Holds w more →
      ∃ out : Bytes, out.IsMirror (bs ++ more) ∧
        (∀ inPlace, ∃ x s', (reverseJoined v w inPlace).outcome s = (.ok x, s') ∧ s'.Holds x out) ∧
        ∀ inPlace inPlace', ¬ v.IsFixed inPlace → ¬ w.IsFixed inPlace' → (inPlace' = true → v ≠ w) →
          ∃ x s', (joinReversed v w inPlace inPlace').outcome s = (.ok x, s') ∧ s'.Holds x out := by
  refine ⟨⟨bs.swapEnds?_toArray, bs.isMirror_swapReverse⟩, ⟨outcome_reverse_copy hv, ?_⟩,
    ⟨makes_reverse_reverse hv, ?_⟩, ?_⟩
  · rintro ref rfl
    exact outcome_reverse_inPlace hv
  · rintro ref rfl
    exact outcome_reverse_reverse hv
  · intro w more hw
    refine ⟨(bs ++ more).swapReverse, Bytes.isMirror_swapReverse _, exists_reverseJoined hv hw, ?_⟩
    intro inPlace inPlace' hfixed hfixed' hapart
    exact exists_joinReversed hv hw hfixed hfixed' hapart

end

/-- Three bytes are reversed in place around the middle one, and then joined to two others that are
reversed in front of them. -/
theorem reverse_mirrors_three :
    (reverse.apply (.buffer 0) true).outcome ⟨[[1, 2, 3]], [], []⟩
      = (.ok 0, ⟨[[3, 2, 1]], [], []⟩) ∧
      ∃ x s', (joinReversed (.buffer 0) (.bytes [4, 5]) true false).outcome ⟨[[1, 2, 3]], [], []⟩
          = (.ok x, s') ∧
        s'.Holds x [5, 4, 3, 2, 1] := by
  have hheld : Store.Holds ⟨[[1, 2, 3]], [], []⟩ (.buffer 0) [1, 2, 3] :=
    Store.holds_buffer (by decide) rfl
  obtain ⟨⟨-, hmirror⟩, ⟨-, hplace⟩, -, hjoin⟩ := reverse_mirrors hheld
  obtain ⟨out, hout, -, hreversed⟩ := hjoin _ [4, 5] (Store.holds_bytes _ _)
  refine ⟨?_, ?_⟩
  · rw [hplace 0 rfl, Bytes.isMirror_iff.1 hmirror]
    rfl
  · obtain rfl := Bytes.isMirror_iff.1 hout
    exact hreversed true false (not_isFixed_buffer 0 true) (by simp [Value.IsFixed]) nofun

end Transform

end Octets
