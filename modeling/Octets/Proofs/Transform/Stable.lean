import Mathlib.Data.List.Sort
import Octets.Proofs.Transform.Refusal

/-!
# Sorting by a comparator

A comparator may take different bytes for alike. Then more than one order of the bytes fits it, and
a stable sort gives the one in which bytes that are alike keep the order they came in
(`Comparator.SortsTo`).

* `eq_of_pairwise_of_filter` — there is no other; the induction is on the sorted bytes, and the
  first of them is the first of those alike to it.
* `sort_map_signed` — on the bytes the sort is the insertion sort of the library.
* `sortsTo_sortBy` — which is stable if the comparator orders the bytes weakly.
* `ComparesBy` — so it does if it compares a number that each byte has.
* `sort_stable` — all of it for the transform.
-/

namespace Octets

open Octets.Random (Generator)

namespace Comparator

/-! ## Order -/

/-- Does the comparator put one byte before another? It sees their signed values. -/
def precedes (c : Comparator) (a b : UInt8) : Bool :=
  match c.compare (Bytes.signed a) (Bytes.signed b) with
  | .ok order => decide (order < 0)
  | .error _ => false

/-- Does the comparator put neither of two bytes before the other? -/
def alike (c : Comparator) (a b : UInt8) : Bool := !c.precedes a b && !c.precedes b a

/-- The comparator answers for any two bytes, and puts them into a strict weak order. -/
structure IsWeakOrder (c : Comparator) : Prop where
  answers : ∀ a b : UInt8, ∃ order, c.compare (Bytes.signed a) (Bytes.signed b) = .ok order
  isStrictWeakOrder : IsStrictWeakOrder UInt8 fun a b => c.precedes a b = true

/-- `out` has the bytes of `bs` in the order of the comparator, those that are alike as they
came. -/
structure SortsTo (c : Comparator) (bs out : Bytes) : Prop where
  perm : out.Perm bs
  ordered : out.Pairwise fun a b => c.precedes b a = false
  stable : ∀ b, out.filter (c.alike b) = bs.filter (c.alike b)

variable {c : Comparator} {bs out out' : Bytes}

namespace IsWeakOrder

theorem irrefl (hc : c.IsWeakOrder) (a : UInt8) : c.precedes a a = false := by
  have hirrefl := hc.isStrictWeakOrder.irrefl a
  rwa [Bool.not_eq_true] at hirrefl

theorem alike_self (hc : c.IsWeakOrder) (a : UInt8) : c.alike a a = true := by
  simp [alike, hc.irrefl a]

/-- What does not precede, either way or in two steps, does not precede. -/
theorem not_precedes_trans (hc : c.IsWeakOrder) {x y z : UInt8} (hyx : c.precedes y x = false)
    (hzy : c.precedes z y = false) : c.precedes z x = false := by
  have horder := hc.isStrictWeakOrder
  rw [← Bool.not_eq_true] at hyx hzy ⊢
  intro hzx
  -- a byte that is before `x` and not before `y` leaves no place for `y`
  have hxy : ¬ c.precedes x y = true := fun h => hzy (horder.trans _ _ _ hzx h)
  have hyz : ¬ c.precedes y z = true := fun h => hyx (horder.trans _ _ _ h hzx)
  exact (horder.incomp_trans _ _ _ ⟨hxy, hyx⟩ ⟨hyz, hzy⟩).2 hzx

theorem not_precedes_total (hc : c.IsWeakOrder) (x y : UInt8) :
    c.precedes y x = false ∨ c.precedes x y = false := by
  rw [← Bool.not_eq_true, ← Bool.not_eq_true, ← not_and_or]
  rintro ⟨hyx, hxy⟩
  have hself := hc.isStrictWeakOrder.trans _ _ _ hyx hxy
  rw [hc.irrefl] at hself
  cases hself

end IsWeakOrder

/-! ## One order -/

/-- **Bytes in the order of a comparator are determined by those that are alike.** -/
theorem eq_of_pairwise_of_filter (hc : c.IsWeakOrder) (hperm : out.Perm out')
    (hordered : out.Pairwise fun a b => c.precedes b a = false)
    (hordered' : out'.Pairwise fun a b => c.precedes b a = false)
    (hstable : ∀ b, out.filter (c.alike b) = out'.filter (c.alike b)) : out = out' := by
  induction out generalizing out' with
  | nil => exact hperm.nil_eq
  | cons a rest ih =>
    cases out' with
    | nil => exact absurd hperm.symm.nil_eq.symm (List.cons_ne_nil a rest)
    | cons b rest' =>
      obtain ⟨hfirst, hrest⟩ := List.pairwise_cons.1 hordered
      obtain ⟨hfirst', hrest'⟩ := List.pairwise_cons.1 hordered'
      -- each of the two first bytes is among the bytes of the other side, so neither is before the
      -- other
      have hab : c.precedes a b = false := by
        rcases List.mem_cons.1 (hperm.mem_iff.1 List.mem_cons_self) with rfl | hmem
        · exact hc.irrefl a
        · exact hfirst' a hmem
      have hba : c.precedes b a = false := by
        rcases List.mem_cons.1 (hperm.mem_iff.2 List.mem_cons_self) with rfl | hmem
        · exact hc.irrefl b
        · exact hfirst b hmem
      have halike : c.alike a b = true := by
        simp [alike, hab, hba]
      have hheads := hstable a
      rw [List.filter_cons_of_pos (hc.alike_self a), List.filter_cons_of_pos halike] at hheads
      obtain rfl : a = b := (List.cons.inj hheads).1
      rw [ih hperm.cons_inv hrest hrest' fun d => ?_]
      have htails := hstable d
      simp only [List.filter_cons] at htails
      split at htails
      · exact (List.cons.inj htails).2
      · exact htails

theorem SortsTo.unique (hc : c.IsWeakOrder) (h : c.SortsTo bs out) (h' : c.SortsTo bs out') :
    out = out' :=
  eq_of_pairwise_of_filter hc (h.perm.trans h'.perm.symm) h.ordered h'.ordered fun b =>
    (h.stable b).trans (h'.stable b).symm

/-! ## Insertion -/

/-- The bytes sorted by the comparator. -/
def sortBy (c : Comparator) (bs : Bytes) : Bytes :=
  bs.insertionSort fun a b => c.precedes b a = false

theorem insert_map_signed (hc : c.IsWeakOrder) (x : UInt8) (bs : Bytes) :
    c.insert (Bytes.signed x) (bs.map Bytes.signed)
      = .ok ((bs.orderedInsert (fun a b => c.precedes b a = false) x).map Bytes.signed) := by
  induction bs with
  | nil => rfl
  | cons y rest ih =>
    obtain ⟨order, horder⟩ := hc.answers y x
    have hprecedes : c.precedes y x = decide (order < 0) := by
      simp [precedes, horder]
    rw [List.map_cons, insert, horder, List.orderedInsert_cons, hprecedes]
    by_cases hbefore : order < 0
    · simp [hbefore, ih, bind, Except.bind, pure, Except.pure]
    · simp [hbefore, bind, Except.bind, pure, Except.pure]

/-- **On bytes the sort is the insertion sort.** -/
theorem sort_map_signed (hc : c.IsWeakOrder) (bs : Bytes) :
    c.sort (bs.map Bytes.signed) = .ok ((c.sortBy bs).map Bytes.signed) := by
  induction bs with
  | nil => rfl
  | cons x rest ih =>
    rw [List.map_cons, sort, ih]
    exact insert_map_signed hc x _

/-- **The insertion sort is stable.** Bytes that are alike are in order as they come. -/
theorem sortsTo_sortBy (hc : c.IsWeakOrder) (bs : Bytes) : c.SortsTo bs (c.sortBy bs) where
  perm := List.perm_insertionSort _ bs
  ordered :=
    have : Std.Total fun a b => c.precedes b a = false := ⟨hc.not_precedes_total⟩
    have : IsTrans UInt8 fun a b => c.precedes b a = false := ⟨fun _ _ _ => hc.not_precedes_trans⟩
    List.pairwise_insertionSort _ bs
  stable b := by
    have hpairwise : (bs.filter (c.alike b)).Pairwise fun x y => c.precedes y x = false := by
      refine List.pairwise_of_forall_mem_list fun x hx y hy => ?_
      have hx := List.of_mem_filter hx
      have hy := List.of_mem_filter hy
      simp only [alike, Bool.and_eq_true, Bool.not_eq_true'] at hx hy
      exact hc.not_precedes_trans hx.1 hy.2
    -- so the sort has them as a sublist, and it has no others
    have hsublist := (List.sublist_insertionSort hpairwise List.filter_sublist).filter (c.alike b)
    simp only [List.filter_filter, Bool.and_self] at hsublist
    have hlength := ((List.perm_insertionSort (fun x y => c.precedes y x = false) bs).filter
      (c.alike b)).length_eq
    exact (hsublist.eq_of_length hlength.symm).symm

theorem sortBy_of_sortsTo (hc : c.IsWeakOrder) (h : c.SortsTo bs out) : c.sortBy out = out := by
  have hself : c.SortsTo out out := ⟨.refl out, h.ordered, fun _ => rfl⟩
  exact (sortsTo_sortBy hc out).unique hc hself

/-! ## Keys -/

/-- The comparator puts bytes into the order of a number that each of them has. -/
def ComparesBy (c : Comparator) (key : UInt8 → Int) : Prop :=
  ∀ a b, ∃ order, c.compare (Bytes.signed a) (Bytes.signed b) = .ok order ∧
    (order < 0 ↔ key a < key b)

namespace ComparesBy

variable {key : UInt8 → Int}

theorem precedes_eq (h : c.ComparesBy key) (a b : UInt8) :
    c.precedes a b = decide (key a < key b) := by
  obtain ⟨order, horder, hless⟩ := h a b
  simp [precedes, horder, hless]

/-- Bytes are alike that have one number. -/
theorem alike_eq (h : c.ComparesBy key) (a b : UInt8) : c.alike a b = decide (key a = key b) := by
  rw [alike, h.precedes_eq, h.precedes_eq, Bool.eq_iff_iff]
  simp only [Bool.and_eq_true, Bool.not_eq_true', decide_eq_false_iff_not, decide_eq_true_eq]
  omega

theorem isWeakOrder (h : c.ComparesBy key) : c.IsWeakOrder := by
  refine ⟨fun a b => (h a b).imp fun _ horder => horder.1, ?_⟩
  simp only [h.precedes_eq, decide_eq_true_eq]
  exact
    { irrefl := fun a => lt_irrefl (key a)
      trans := fun _ _ _ => lt_trans
      incomp_trans := by
        intro x y z hxy hyz
        omega }

theorem pairwise_sortBy (h : c.ComparesBy key) (bs : Bytes) :
    (c.sortBy bs).Pairwise fun a b => key a ≤ key b := by
  refine (sortsTo_sortBy h.isWeakOrder bs).ordered.imp fun {a b} hab => ?_
  rw [h.precedes_eq, decide_eq_false_iff_not] at hab
  exact Int.not_lt.1 hab

end ComparesBy

/-- Compares the lowest bits. -/
def parity : Comparator where
  name := "parity"
  compare a b := .ok (a % 2 - b % 2)

theorem comparesBy_parity : parity.ComparesBy fun b => Bytes.signed b % 2 :=
  fun _ _ => ⟨_, rfl, Int.lt_of_sub_neg, Int.sub_neg_of_lt⟩

end Comparator

/-! ## The transform -/

namespace Transform

variable {c : Comparator} {s : Store} {v : Value} {bs : Bytes}

theorem effect_sortBy (hc : c.IsWeakOrder) (bs : Bytes) (gs : List Generator) :
    (sort (some c)).effect bs gs = .ok (c.sortBy bs, gs) := by
  have hbytes : ((c.sortBy bs).map Bytes.signed).map Bytes.ofSigned = c.sortBy bs := by
    rw [List.map_map]
    exact List.map_id'' Bytes.ofSigned_signed _
  simp only [effect, Comparator.sort_map_signed hc, hbytes]

/-- A sort by a comparator puts the sorted bytes into a new buffer, whatever is asked. -/
theorem outcome_sortBy (hc : c.IsWeakOrder) (hv : v.asBytes? s.bytes = some bs) (inPlace : Bool) :
    ((sort (some c)).apply v inPlace).outcome s
      = (.ok s.buffers.length, (s.add (c.sortBy bs)).2) := by
  rw [outcome_apply (t := sort (some c)) rfl hv,
    result_of_allocate rfl (effect_sortBy hc bs s.generators)]

/-- **Sorting by a comparator is a stable sort.** If the comparator orders the bytes weakly, there
is one way to put bytes into its order in which those that are alike stay as they came, and the
transform makes it, as a new buffer whatever is asked. The bytes it is given are left. Sorting again
changes nothing. -/
theorem sort_stable (hc : c.IsWeakOrder) (hv : s.Holds v bs) :
    ∃ out, (c.SortsTo bs out ∧ ∀ other, c.SortsTo bs other → other = out) ∧
      ∀ inPlace, ((sort (some c)).apply v inPlace).outcome s
          = (.ok s.buffers.length, (s.add out).2) ∧
        v ≠ .buffer s.buffers.length ∧ (s.add out).2.Holds v bs ∧
        ∀ again, (do
            let ref ← (sort (some c)).apply v inPlace
            (sort (some c)).apply (.buffer ref) again).outcome s
          = (.ok (s.buffers.length + 1), ((s.add out).2.add out).2) := by
  have hsorted := Comparator.sortsTo_sortBy hc bs
  refine ⟨c.sortBy bs, ⟨hsorted, fun other hother => hother.unique hc hsorted⟩, fun inPlace => ?_⟩
  have hrun := outcome_sortBy hc hv.asBytes? inPlace
  refine ⟨hrun, ?_, ?_, fun again => ?_⟩
  · rintro rfl
    exact Nat.lt_irrefl _ (hv.isLive _ rfl)
  · exact hv.of_add _
  · have hheld := s.holds_add (c.sortBy bs)
    rw [Action.outcome_bind, hrun]
    show ((sort (some c)).apply (.buffer s.buffers.length) again).outcome _ = _
    rw [outcome_sortBy hc hheld.asBytes? again, Comparator.sortBy_of_sortsTo hc hsorted,
      Store.length_buffers_add]

/-- Two even bytes are alike, and so are two odd ones; they stay as they came. -/
theorem sort_stable_parity :
    ((sort (some .parity)).apply (.buffer 0) true).outcome ⟨[[3, 2, 1, 4]], [], []⟩
      = (.ok 1, ⟨[[3, 2, 1, 4], [2, 4, 3, 1]], [], []⟩) := by
  have hheld : Store.Holds ⟨[[3, 2, 1, 4]], [], []⟩ (.buffer 0) [3, 2, 1, 4] :=
    Store.holds_buffer (by decide) rfl
  obtain ⟨out, ⟨-, hunique⟩, hrun⟩ := sort_stable Comparator.comparesBy_parity.isWeakOrder hheld
  have hout : [2, 4, 3, 1] = out := by
    refine hunique _ ⟨by decide, by decide, fun b => ?_⟩
    have halike := funext (Comparator.comparesBy_parity.alike_eq b)
    rw [halike]
    rcases Int.emod_two_eq (Bytes.signed b) with hb | hb
    · rw [hb]
      rfl
    · rw [hb]
      rfl
  rw [(hrun true).1, ← hout]
  rfl

end Transform

end Octets
