import Octets.Random.Seed

/-!
# Generators

A generator answers draws: asked for an index up to `i` it gives one of `0, …, i`, and changes. That
the answer is in range is part of its type.

A generator is either the seeded one of this library, or one that a caller supplies. A supplied one
is a function of the bounds it has been asked for before and of the present one; it keeps the list
of them, so its answers may follow any script.
-/

namespace Octets.Random

/-- A source of random indices. -/
inductive Generator where
  | twister (state : Twister)
  /-- The answers, given the bounds of the earlier draws, and those bounds themselves. -/
  | supplied (answer : List Nat → (i : Nat) → Fin (i + 1)) (calls : List Nat)

namespace Generator

/-- The generator that a number seeds. -/
def ofSeed (n : Nat) : Generator := .twister (.ofNumber n)

/-- A generator that gives the numbers of a script over and over, each reduced to the bound. -/
def scripted (script : List Int) : Generator :=
  .supplied
    (fun calls i =>
      let n := script.getD (calls.length % script.length) 0
      Fin.ofNat (i + 1) (n % (i + 1)).toNat)
    []

/-- Draws from the twister until the number is at most `i`; each draw has as many bits as `i + 1`,
so more than half of all numbers fit. The draws are bounded; the last is reduced. -/
def drawBelow : Nat → (i : Nat) → Twister → Fin (i + 1) × Twister
  | 0, i, t =>
    let (n, t) := t.bits (Bytes.bitLength (i + 1))
    (Fin.ofNat (i + 1) n, t)
  | tries + 1, i, t =>
    let (n, t) := t.bits (Bytes.bitLength (i + 1))
    if h : n < i + 1 then (⟨n, h⟩, t) else drawBelow tries i t

/-- How many draws are made before the last. -/
def maxTries : Nat := 1000

/-- Draws an index from `0` to `i`. -/
def draw (i : Nat) : Generator → Fin (i + 1) × Generator
  | twister t =>
    let (j, t) := drawBelow maxTries i t
    (j, .twister t)
  | supplied answer calls => (answer calls i, .supplied answer (calls ++ [i + 1]))

/-- The bounds that a supplied generator has been asked for. -/
def calls? : Generator → Option (List Nat)
  | twister _ => none
  | supplied _ calls => some calls

end Generator

end Octets.Random
