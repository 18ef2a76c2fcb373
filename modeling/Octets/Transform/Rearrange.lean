import Octets.Random.Generator

/-!
# Rearranging by swaps

Two loops that rearrange an array by swapping two places at a time, whatever the elements are.

* `swapEnds` reverses: each place of the first half is swapped with its counterpart from the end.
* `swapDown` shuffles: from the last place down to the second, each is swapped with a drawn place
  not behind it. `draws` takes the places from a generator, one for every place, and `shuffle` does
  both.
-/

namespace Octets.Rearrange

variable {α : Type}

/-! ## Reversing -/

/-- Swaps each place of the first half with its counterpart from the end. -/
def swapEnds (a : Array α) : Array α :=
  (List.range (a.size / 2)).foldl (fun b i => b.swapIfInBounds i (a.size - i - 1)) a

/-! ## Shuffling -/

/-- Swaps the place `i` with the first drawn place, `i - 1` with the second, and so on down to 1. -/
def swapDown : Nat → List Nat → Array α → Array α
  | i + 1, j :: js, a => swapDown i js (a.swapIfInBounds (i + 1) j)
  | _, _, a => a

/-- One place for each of the places `i`, …, 1, none behind its own. -/
def draws : Nat → Random.Generator → List Nat × Random.Generator
  | 0, g => ([], g)
  | i + 1, g =>
    let (j, g) := g.draw (i + 1)
    let (js, g) := draws i g
    (j.val :: js, g)

/-- Shuffles an array by the draws of a generator. -/
def shuffle (a : Array α) (g : Random.Generator) : Array α × Random.Generator :=
  let (js, g) := draws (a.size - 1) g
  (swapDown (a.size - 1) js a, g)

theorem size_swapDown (i : Nat) (js : List Nat) (a : Array α) :
    (swapDown i js a).size = a.size := by
  fun_induction swapDown i js a with
  | case1 i j js a ih => simpa using ih
  | case2 => rfl

end Octets.Rearrange
