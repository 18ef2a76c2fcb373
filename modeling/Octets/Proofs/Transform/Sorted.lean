import Octets.Proofs.Transform.Positions
import Octets.Proofs.Transform.Reverse
import Octets.Proofs.Transform.Stable

/-!
# One order of bytes

Distinct bytes have distinct signed values, so bytes have one order by them (`eq_sort_of_perm`).
Whatever puts them into it gives the same bytes:

* `sortBy_of_isDifference`, `sortBy_descending` — the sort by a comparator, which is another
  algorithm.
* `sort_of_perm` — the sort of the same bytes in other places.
* `complement_sort` — the sort of the inverted bytes, from behind.
* `sort_canonical` — all of it for the transforms.
-/

namespace Octets

open Octets.Random (Generator)

namespace Bytes

variable {bs bs' out : Bytes}

/-! ## Signed values -/

theorem signed_injective {a b : UInt8} (h : signed a = signed b) : a = b := by
  rw [← ofSigned_signed a, h, ofSigned_signed]

/-- Inverting the bits turns the order of the signed values round. The least, -128, and the
greatest, 127, are each other's complement. -/
theorem signed_complement (b : UInt8) : signed (~~~b) = -1 - signed b := by
  have hb := b.toNat_lt
  have hnot : (~~~b).toNat = 255 - b.toNat := by
    rw [UInt8.toNat_not]
    rfl
  unfold signed
  rw [hnot]
  split <;> split <;> omega

/-! ## The sort -/

theorem sort_perm (bs : Bytes) : bs.sort.Perm bs := List.mergeSort_perm _ _

theorem pairwise_sort (bs : Bytes) : bs.sort.Pairwise fun a b => signed a ≤ signed b := by
  let le (a b : UInt8) : Bool := decide (signed a ≤ signed b)
  have htrans : ∀ a b c, le a b → le b c → le a c := by
    intro a b c
    simp only [le, decide_eq_true_eq]
    exact Int.le_trans
  have htotal : ∀ a b, le a b || le b a := by
    intro a b
    simp only [le, Bool.or_eq_true, decide_eq_true_eq]
    exact Int.le_total _ _
  exact (List.pairwise_mergeSort htrans htotal bs).imp of_decide_eq_true

/-- **There is one order.** -/
theorem eq_sort_of_perm (hperm : out.Perm bs)
    (hordered : out.Pairwise fun a b => signed a ≤ signed b) : out = bs.sort := by
  refine List.Perm.eq_of_pairwise ?_ hordered (pairwise_sort bs) (hperm.trans (sort_perm bs).symm)
  intro a b _ _ hab hba
  exact signed_injective (Int.le_antisymm hab hba)

/-- It is no matter in which places the bytes have been. -/
theorem sort_of_perm (h : bs'.Perm bs) : bs'.sort = bs.sort :=
  eq_sort_of_perm ((sort_perm bs').trans h) (pairwise_sort bs')

/-- The order from behind is one as well. -/
theorem eq_reverse_sort_of_perm (hperm : out.Perm bs)
    (hordered : out.Pairwise fun a b => signed b ≤ signed a) : out = bs.sort.reverse := by
  have hreverse : out.reverse = bs.sort :=
    eq_sort_of_perm ((List.reverse_perm out).trans hperm) (List.pairwise_reverse.2 hordered)
  rw [← hreverse, List.reverse_reverse]

/-- **Inverting turns the order round.** -/
theorem complement_sort (bs : Bytes) : bs.sort.complement = bs.complement.sort.reverse := by
  refine eq_reverse_sort_of_perm ((sort_perm bs).map _) (List.pairwise_map.2 ?_)
  refine (pairwise_sort bs).imp fun {a b} hab => ?_
  rw [signed_complement, signed_complement]
  omega

end Bytes

/-! ## Comparators -/

namespace Comparator

open Bytes (signed)

/-- The comparator gives the difference of the signed values of any two bytes. -/
def IsDifference (c : Comparator) : Prop :=
  ∀ a b : UInt8, c.compare (signed a) (signed b) = .ok (signed a - signed b)

theorem IsDifference.comparesBy {c : Comparator} (hc : c.IsDifference) : c.ComparesBy signed :=
  fun a b => ⟨_, hc a b, Int.lt_of_sub_neg, Int.sub_neg_of_lt⟩

/-- **The two algorithms agree.** -/
theorem sortBy_of_isDifference {c : Comparator} (hc : c.IsDifference) (bs : Bytes) :
    c.sortBy bs = bs.sort := by
  have hsorted := sortsTo_sortBy hc.comparesBy.isWeakOrder bs
  exact Bytes.eq_sort_of_perm hsorted.perm (hc.comparesBy.pairwise_sortBy bs)

theorem comparesBy_descending : descending.ComparesBy fun b => -signed b := by
  intro a b
  refine ⟨_, rfl, ?_⟩
  show _ ↔ -signed a < -signed b
  split <;> split <;> omega

/-- **Greater numbers first is the order from behind.** -/
theorem sortBy_descending (bs : Bytes) : descending.sortBy bs = bs.sort.reverse := by
  have hsorted := sortsTo_sortBy comparesBy_descending.isWeakOrder bs
  refine Bytes.eq_reverse_sort_of_perm hsorted.perm ?_
  exact (comparesBy_descending.pairwise_sortBy bs).imp Int.neg_le_neg_iff.1

end Comparator

/-! ## The transforms -/

namespace Transform

variable {t : Transform} {s : Store} {v : Value} {bs bs' mid : Bytes} {gs : List Generator}

theorem makes_sort_of_perm (hv : s.Holds v bs') (h : bs'.Perm bs) :
    Makes [sort none] s v bs.sort s.generators := by
  rw [← Bytes.sort_of_perm h]
  exact makes_of_effect rfl hv rfl

/-- What only moves bytes is undone by a sort. -/
theorem Makes.sort (h : Makes [t] s v mid gs) (hperm : mid.Perm bs) :
    Makes [t, .sort none] s v bs.sort gs := by
  refine h.cons fun s' ref hheld hgs => ?_
  subst hgs
  exact makes_sort_of_perm hheld hperm

theorem makes_reverse (hv : s.Holds v bs) : Makes [reverse] s v bs.reverse s.generators := by
  rw [← Bytes.swapReverse_eq_reverse]
  exact makes_of_effect rfl hv rfl

/-- A shuffle moves bytes; without a generator it leaves them. -/
theorem exists_makes_shuffle (kind : GeneratorKind) (generator : Nat) (hv : s.Holds v bs) :
    ∃ mid gs, mid.Perm bs ∧ Makes [shuffle kind generator] s v mid gs := by
  cases hg : s.generators[generator]? with
  | some g => exact ⟨_, _, bs.shuffle_perm g, makes_shuffle kind hv hg⟩
  | none =>
    refine ⟨bs, s.generators, .refl bs, makes_of_effect rfl hv ?_⟩
    simp only [effect, hg]

/-- **A sort is a canonical form.** Bytes have one order by their signed values. The sort gives it,
and so does the sort by a comparator that subtracts; the sort of the same bytes in other places,
reversed or shuffled; and, from behind, the sort with greater numbers first. Inverted it is the
order of the inverted bytes from behind. All of this holds in place and not. -/
theorem sort_canonical (hv : s.Holds v bs) :
    ∃ out : Bytes,
      (out.Perm bs ∧ out.Pairwise fun a b => Bytes.signed a ≤ Bytes.signed b) ∧
      Makes [sort none] s v out s.generators ∧
      (∀ c : Comparator, c.IsDifference → Makes [sort (some c)] s v out s.generators) ∧
      (∀ (s' : Store) (w : Value) (bs' : Bytes), s'.Holds w bs' → bs'.Perm bs →
        Makes [sort none] s' w out s'.generators) ∧
      Makes [reverse, sort none] s v out s.generators ∧
      (∀ kind generator, ∃ gs, Makes [shuffle kind generator, sort none] s v out gs) ∧
      Makes [sort (some .descending)] s v out.reverse s.generators ∧
      Makes [sort none, reverse] s v out.reverse s.generators ∧
      Makes [sort none, negate] s v out.complement s.generators ∧
      Makes [negate, sort (some .descending)] s v out.complement s.generators ∧
      Makes [negate, sort none, reverse] s v out.complement s.generators := by
  have hdescending : ∀ (mid : Bytes) gs,
      (sort (some .descending)).effect mid gs = .ok (mid.sort.reverse, gs) := by
    intro mid gs
    rw [effect_sortBy Comparator.comparesBy_descending.isWeakOrder, Comparator.sortBy_descending]
  have hinverted := bs.complement_sort
  refine ⟨bs.sort, ⟨bs.sort_perm, bs.pairwise_sort⟩, ?_, ?_, ?_, ?_, ?_, ?_, ?_, ?_, ?_, ?_⟩
  · exact makes_sort_of_perm hv (.refl bs)
  · intro c hc
    refine makes_of_effect rfl hv ?_
    rw [effect_sortBy hc.comparesBy.isWeakOrder, Comparator.sortBy_of_isDifference hc]
  · intro s' w bs' hw hperm
    exact makes_sort_of_perm hw hperm
  · exact (makes_reverse hv).sort bs.reverse_perm
  · intro kind generator
    obtain ⟨mid, gs, hperm, hmakes⟩ := exists_makes_shuffle kind generator hv
    exact ⟨gs, hmakes.sort hperm⟩
  · exact makes_of_effect rfl hv (hdescending bs s.generators)
  -- two or three in turn come to their effects in turn
  · refine makes_of_effects (by simp [IsOwn, kind?]) hv ?_
    rw [effectInTurn_cons rfl, effectInTurn_cons rfl, Bytes.swapReverse_eq_reverse,
      effectInTurn_nil]
  · refine makes_of_effects (by simp [IsOwn, kind?]) hv ?_
    rw [effectInTurn_cons rfl, effectInTurn_cons rfl, effectInTurn_nil]
  · refine makes_of_effects (by simp [IsOwn, kind?]) hv ?_
    rw [effectInTurn_cons rfl, effectInTurn_cons (hdescending _ _), effectInTurn_nil, hinverted]
  · refine makes_of_effects (by simp [IsOwn, kind?]) hv ?_
    rw [effectInTurn_cons rfl, effectInTurn_cons rfl, effectInTurn_cons rfl,
      Bytes.swapReverse_eq_reverse, effectInTurn_nil, hinverted]

/-- The signs are on both sides of the middle: 127 is the greatest, and 128 stands for -128. -/
theorem sort_canonical_signs :
    Makes [sort none] ⟨[[5, 255, 0, 128, 127]], [], []⟩ (.buffer 0) [128, 255, 0, 5, 127] [] ∧
      Makes [sort (some ⟨"difference", fun a b => .ok (a - b)⟩)] ⟨[[5, 255, 0, 128, 127]], [], []⟩
        (.buffer 0) [128, 255, 0, 5, 127] [] ∧
      Makes [negate, sort none, reverse] ⟨[[5, 255, 0, 128, 127]], [], []⟩ (.buffer 0)
        [127, 0, 255, 250, 128] [] := by
  have hheld : Store.Holds ⟨[[5, 255, 0, 128, 127]], [], []⟩ (.buffer 0) [5, 255, 0, 128, 127] :=
    Store.holds_buffer (by decide) rfl
  obtain ⟨out, ⟨hperm, hordered⟩, hsorted, hdifference, -, -, -, -, -, -, -, hinverted⟩ :=
    sort_canonical hheld
  have hout : out = [128, 255, 0, 5, 127] :=
    (Bytes.eq_sort_of_perm hperm hordered).trans
      (Bytes.eq_sort_of_perm (by decide) (by decide)).symm
  subst hout
  exact ⟨hsorted, hdifference _ fun _ _ => rfl, hinverted⟩

end Transform

end Octets
