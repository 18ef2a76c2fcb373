/-!
# Similar words

How alike two words are: the longest block of characters that both hold is taken out, and the same
is done with what stands before it in both and with what stands behind it. Twice the number of
characters taken out, over the length of both words, is the likeness.

Of several longest blocks the one that comes first in the first word is taken, and of those the one
that comes first in the second.
-/

namespace Octets.Text.Similar

/-- The number of characters that two texts begin with alike. -/
def common : List Char → List Char → Nat
  | c :: a, d :: b => if c = d then common a b + 1 else 0
  | _, _ => 0

/-- The longest common block: where it starts in either text, and its length. -/
def block (a b : List Char) : Nat × Nat × Nat :=
  let starts := (List.range a.length).flatMap fun i => (List.range b.length).map fun j => (i, j)
  starts.foldl
    (fun best (i, j) =>
      let n := common (a.drop i) (b.drop j)
      if best.2.2 < n then (i, j, n) else best)
    (0, 0, 0)

/-- The number of characters in common blocks, with at most `fuel` blocks inside one another. -/
def matchedWithin : Nat → List Char → List Char → Nat
  | 0, _, _ => 0
  | fuel + 1, a, b =>
    let (i, j, n) := block a b
    if n = 0 then 0
    else
      n + matchedWithin fuel (a.take i) (b.take j) +
        matchedWithin fuel (a.drop (i + n)) (b.drop (j + n))

/-- The number of characters in common blocks; every block takes a character out of the first
text. -/
def matched (a b : List Char) : Nat := matchedWithin a.length a b

/-- Is one likeness, as a numerator over a denominator, above another? -/
def isAbove (a b : Nat × Nat) : Bool := b.1 * a.2 < a.1 * b.2

/-- The likeness of a candidate to a word, as a numerator over a denominator. -/
def likeness (word candidate : String) : Nat × Nat :=
  (2 * matched candidate.toList word.toList, candidate.length + word.length)

/-- Is the likeness three fifths at least? -/
def isClose (likeness : Nat × Nat) : Bool := 3 * likeness.2 ≤ 5 * likeness.1

/-- Does the first of two candidates come before the second: more alike, or later by the
alphabet? -/
def isBetter (a b : (Nat × Nat) × String) : Bool :=
  isAbove a.1 b.1 || (!isAbove b.1 a.1 && decide (b.2 ≤ a.2))

/-- The at most three candidates that are most like a word and close to it, by the alphabet. -/
def closest (word : String) (candidates : List String) : List String :=
  let rated := candidates.map fun c => (likeness word c, c)
  let close := (rated.filter fun r => isClose r.1).mergeSort isBetter
  ((close.take 3).map (·.2)).mergeSort fun a b => decide (a ≤ b)

end Octets.Text.Similar
