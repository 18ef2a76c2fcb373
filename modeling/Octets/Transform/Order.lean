import Octets.Value

/-!
# Sorting bytes

Two sorts on bytes taken as signed numbers: by the numbers themselves, and by a comparator that a
caller supplies. Both are stable.

The sort by a comparator is an insertion sort, structural over the list. It asks whether a later
element comes before an earlier one, and ends with the comparator's refusal if there is one. A
comparator that answers for every pair gives the one result that every stable sort gives. But
another stable sort may ask about other pairs, so one that refuses some pairs only may be refused
here and not there, or the reverse.
-/

namespace Octets

namespace Comparator

/-- Greater numbers first. -/
def descending : Comparator where
  name := "descending"
  compare a b := .ok ((if a < b then 1 else 0) - (if b < a then 1 else 0))

/-- Puts `x` in front of the first element that does not come before it. -/
def insert (c : Comparator) (x : Int) : List Int → Except String (List Int)
  | [] => .ok [x]
  | y :: rest => do
    let order ← c.compare y x
    if order < 0 then
      let rest ← insert c x rest
      return y :: rest
    else return x :: y :: rest

/-- Sorts by the comparator; elements that compare equal keep their order. -/
def sort (c : Comparator) : List Int → Except String (List Int)
  | [] => .ok []
  | x :: rest => do
    let rest ← sort c rest
    insert c x rest

end Comparator

namespace Bytes

/-- Sorts bytes by their signed values, least first. -/
def sort (bs : Bytes) : Bytes := bs.mergeSort fun a b => decide (signed a ≤ signed b)

end Bytes

end Octets
