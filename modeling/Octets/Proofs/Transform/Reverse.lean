import Octets.Proofs.Transform.Shuffle

/-!
# Swapping ends reverses

The loop swaps the first place with the last, the second with the last but one, and stops in the
middle. The invariant after `m` swaps: the first `m` places and the last `m` have the element of
their mirror place, and all places between them have their own.

* `getElem?_swapPairs` — the invariant; the induction is on the number of swaps.
* `swapEnds_eq_reverse` — with half of the places swapped, none is left between.
* `swapEnds?_eq` — the loop with every index checked has the same result, so none lies outside.
* `Bytes.isMirror_iff` — the reverse, said place by place.
-/

namespace Octets

namespace Rearrange

variable {α : Type}

/-- The first `m` swaps of an array: the places before `m`, each with its mirror place. -/
def swapPairs (a : Array α) (m : Nat) : Array α :=
  (List.range m).foldl (fun b i => b.swapIfInBounds i (a.size - i - 1)) a

theorem swapPairs_succ (a : Array α) (m : Nat) :
    swapPairs a (m + 1) = (swapPairs a m).swapIfInBounds m (a.size - m - 1) := by
  simp [swapPairs, List.range_succ]

@[simp] theorem size_swapPairs (a : Array α) (m : Nat) : (swapPairs a m).size = a.size := by
  induction m with
  | zero => rfl
  | succ m ih => rw [swapPairs_succ, Array.size_swapIfInBounds, ih]

/-- Up to the middle, the next swap is one of two places of the array. -/
theorem lt_size_swapPairs (a : Array α) {m : Nat} (hm : 2 * (m + 1) ≤ a.size) :
    m < (swapPairs a m).size ∧ a.size - m - 1 < (swapPairs a m).size := by
  rw [size_swapPairs]
  omega

/-- **After `m` swaps the `m` places at either end are mirrored**, and those between are as they
were. -/
theorem getElem?_swapPairs (a : Array α) {m k : Nat} (hm : 2 * m ≤ a.size) (hk : k < a.size) :
    (swapPairs a m)[k]? = if k < m ∨ a.size ≤ k + m then a[a.size - 1 - k]? else a[k]? := by
  induction m generalizing k with
  | zero =>
    rw [if_neg (by omega)]
    rfl
  | succ m ih =>
    obtain ⟨hfirst, hlast⟩ := lt_size_swapPairs a hm
    rw [swapPairs_succ, getElem?_swapIfInBounds hfirst hlast, Equiv.swap_apply_def]
    -- the two places of this swap were between, so each had its own element
    by_cases hkm : k = m
    · rw [if_pos hkm, ih (by omega) (by omega), if_neg (by omega), if_pos (by omega)]
      congr 1
      omega
    rw [if_neg hkm]
    by_cases hkn : k = a.size - m - 1
    · rw [if_pos hkn, ih (by omega) (by omega), if_neg (by omega), if_pos (by omega)]
      congr 1
      omega
    rw [if_neg hkn, ih (by omega) hk]
    exact if_congr (by omega) rfl rfl

theorem size_swapEnds (a : Array α) : (swapEnds a).size = a.size :=
  size_swapPairs a (a.size / 2)

/-- **Swapping ends reverses.** The middle place of an odd number is its own mirror place. -/
theorem swapEnds_eq_reverse (a : Array α) : swapEnds a = a.reverse := by
  apply Array.ext_getElem?
  intro k
  by_cases hk : k < a.size
  · have hswaps : (swapEnds a)[k]? = (swapPairs a (a.size / 2))[k]? := rfl
    rw [hswaps, getElem?_swapPairs a (by omega) hk, Array.getElem?_reverse hk]
    split
    · rfl
    · congr 1
      omega
  · rw [Array.getElem?_eq_none (by rw [size_swapEnds]; omega),
      Array.getElem?_eq_none (by rw [Array.size_reverse]; omega)]

/-! ## Checked indices -/

/-- The element at an index; there is none in front of the first place or behind the last. -/
def read? (a : Array α) (i : Int) : Option α :=
  if 0 ≤ i then a[i.toNat]? else none

/-- Sets the element at an index; there is no result if the index lies outside. -/
def write? (a : Array α) (i : Int) (x : α) : Option (Array α) :=
  if h : 0 ≤ i ∧ i < a.size then some (a.set i.toNat x (by omega)) else none

/-- Reads the elements at two indices and writes each of them at the other index. -/
def exchange? (a : Array α) (i j : Int) : Option (Array α) := do
  let x ← read? a j
  let y ← read? a i
  let b ← write? a i x
  write? b j y

/-- The first `m` swaps with every index checked. -/
def swapPairs? (a : Array α) (m : Nat) : Option (Array α) :=
  (List.range m).foldlM (fun b (i : Nat) => exchange? b i (a.size - i - 1)) a

/-- Swaps each place of the first half with its counterpart from the end, with every index
checked. -/
def swapEnds? (a : Array α) : Option (Array α) := swapPairs? a (a.size / 2)

theorem read?_natCast {a : Array α} {i : Nat} (h : i < a.size) : read? a i = some a[i] := by
  simp [read?, h]

theorem write?_natCast {a : Array α} {i : Nat} (h : i < a.size) (x : α) :
    write? a i x = some (a.set i x h) := by
  simp [write?, h]

theorem exchange?_natCast {a : Array α} {i j : Nat} (hi : i < a.size) (hj : j < a.size) :
    exchange? a i j = some (a.swapIfInBounds i j) := by
  have hset : j < (a.set i a[j] hi).size := by
    simpa using hj
  simp only [exchange?, read?_natCast hi, read?_natCast hj, write?_natCast hi, Option.bind_eq_bind,
    Option.bind_some, write?_natCast hset]
  rw [Array.swapIfInBounds_def, dif_pos hi, dif_pos hj]
  rfl

/-- As long as the swaps do not pass the middle, no index lies outside. -/
theorem swapPairs?_eq (a : Array α) {m : Nat} (hm : 2 * m ≤ a.size) :
    swapPairs? a m = some (swapPairs a m) := by
  induction m with
  | zero => rfl
  | succ m ih =>
    obtain ⟨hfirst, hlast⟩ := lt_size_swapPairs a hm
    have hindex : ((a.size - m - 1 : Nat) : Int) = a.size - m - 1 := by
      omega
    have hnext := exchange?_natCast hfirst hlast
    rw [hindex, ← swapPairs_succ] at hnext
    rw [swapPairs?, List.range_succ, List.foldlM_append, ← swapPairs?, ih (by omega)]
    simp [hnext]

/-- **No index lies outside**: the loop that checks each of them comes to the same result. -/
theorem swapEnds?_eq (a : Array α) : swapEnds? a = some (swapEnds a) :=
  swapPairs?_eq a (by omega)

end Rearrange

/-! ## Bytes -/

namespace Bytes

/-- `out` has the bytes of `bs` at mirrored places. -/
structure IsMirror (out bs : Bytes) : Prop where
  length_eq : out.length = bs.length
  getElem?_eq : ∀ i < bs.length, out[i]? = bs[bs.length - 1 - i]?

theorem isMirror_iff {out bs : Bytes} : out.IsMirror bs ↔ out = bs.reverse := by
  constructor
  · intro h
    apply List.ext_getElem?
    intro i
    by_cases hi : i < bs.length
    · rw [h.getElem?_eq i hi, List.getElem?_reverse hi]
    · have hout : out.length ≤ i := by
        rw [h.length_eq]
        omega
      have hreverse : bs.reverse.length ≤ i := by
        rw [List.length_reverse]
        omega
      rw [List.getElem?_eq_none hout, List.getElem?_eq_none hreverse]
  · rintro rfl
    exact ⟨List.length_reverse, fun i hi => List.getElem?_reverse hi⟩

theorem swapReverse_eq_reverse (bs : Bytes) : bs.swapReverse = bs.reverse := by
  rw [swapReverse, Rearrange.swapEnds_eq_reverse, Array.toList_reverse]

end Bytes

end Octets
