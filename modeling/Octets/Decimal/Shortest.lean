/-!
# Shortest decimals

The decimal with the fewest digits that a binary floating-point number is nearest to, found by exact
arithmetic on naturals.

A finite number is `mantissa · 2 ^ exponent`. The reals that round to it form an interval that ends
halfway to its two neighbours; the ends belong to it when the mantissa is even. `readsBack` tests
whether a decimal lies in the interval. `shortest` tries decimals of one digit, two digits and so
on: on each grid only the two neighbours of the number need a test, since if any point of the grid
lies in the interval one of these two does. Of two hits the nearer is taken, and the even one if
both are equally near.

Seventeen digits always read back, so the search ends; behind it stands the exact value.
-/

namespace Octets.Decimal

/-- The size of a finite number: `mantissa · 2 ^ exponent`. -/
structure Finite where
  mantissa : Nat
  exponent : Int
  /-- The neighbour below is half as far away as the neighbour above. -/
  narrowBelow : Bool
  deriving Repr, DecidableEq

/-- The number `digits · 10 ^ exponent`. -/
structure Dec where
  digits : Nat
  exponent : Int
  deriving Repr, DecidableEq

/-- The size of the finite number with these 64 bits, whatever its sign. -/
def Finite.ofBits (bits : UInt64) : Finite :=
  let field := ((bits >>> 52) &&& 0x7ff).toNat
  let fraction := (bits &&& 0xfffffffffffff).toNat
  if field = 0 then ⟨fraction, -1074, false⟩
  else ⟨0x10000000000000 + fraction, (field : Int) - 1075, fraction = 0 && 1 < field⟩

/-- Compares `a · 10 ^ i` with `n · 2 ^ j`. -/
def compareScaled (a : Nat) (i : Int) (n : Nat) (j : Int) : Ordering :=
  compare (a * Nat.pow 10 i.toNat * Nat.pow 2 (-j).toNat)
    (n * Nat.pow 2 j.toNat * Nat.pow 10 (-i).toNat)

/-- Does the decimal lie among the reals that round to the number? -/
def Finite.readsBack (x : Finite) (d : Dec) : Bool :=
  let below := if x.narrowBelow then 4 * x.mantissa - 1 else 4 * x.mantissa - 2
  let above := 4 * x.mantissa + 2
  let closed := x.mantissa % 2 = 0
  let fromBelow := compareScaled d.digits d.exponent below (x.exponent - 2)
  let fromAbove := compareScaled d.digits d.exponent above (x.exponent - 2)
  (fromBelow = .gt || (closed && fromBelow = .eq)) &&
    (fromAbove = .lt || (closed && fromAbove = .eq))

/-- The least `k` with `x < 10 ^ k`. The logarithm to base two gives it up to the few steps
tried. -/
def Finite.scale (x : Finite) : Int :=
  let estimate := ((Nat.log2 x.mantissa : Int) + x.exponent) * 30103 / 100000 - 1
  let candidates := (List.range 4).map fun (i : Nat) => estimate + (i : Int)
  (candidates.find? fun k => compareScaled 1 k x.mantissa x.exponent = .gt).getD (estimate + 4)

/-- The decimal of `count` digits that reads back, if there is one; of two the nearer one. -/
def Finite.withDigits? (x : Finite) (scale : Int) (count : Nat) : Option Dec :=
  let grid := scale - count
  let num := x.mantissa * Nat.pow 2 x.exponent.toNat * Nat.pow 10 (-grid).toNat
  let den := Nat.pow 2 (-x.exponent).toNat * Nat.pow 10 grid.toNat
  let low := num / den
  match x.readsBack ⟨low, grid⟩, x.readsBack ⟨low + 1, grid⟩ with
  | false, false => none
  | true, false => some ⟨low, grid⟩
  | false, true => some ⟨low + 1, grid⟩
  | true, true =>
    match compare (2 * num) ((2 * low + 1) * den) with
    | .lt => some ⟨low, grid⟩
    | .gt => some ⟨low + 1, grid⟩
    | .eq => if low % 2 = 0 then some ⟨low, grid⟩ else some ⟨low + 1, grid⟩

/-- The exact value of the number as a decimal. -/
def Finite.exact (x : Finite) : Dec :=
  if 0 ≤ x.exponent then ⟨x.mantissa * Nat.pow 2 x.exponent.toNat, 0⟩
  else ⟨x.mantissa * Nat.pow 5 (-x.exponent).toNat, x.exponent⟩

/-- Moves the zeros at the end of the digits into the exponent. -/
def Dec.trim (d : Dec) : Dec :=
  if _h : d.digits ≠ 0 ∧ d.digits % 10 = 0 then Dec.trim ⟨d.digits / 10, d.exponent + 1⟩ else d
termination_by d.digits
decreasing_by omega

/-- The decimal with the fewest digits that reads back. -/
def Finite.shortest (x : Finite) : Dec :=
  if x.mantissa = 0 then ⟨0, 0⟩
  else
    let scale := x.scale
    (((List.range 17).findSome? fun i => x.withDigits? scale (i + 1)).getD x.exact).trim

end Octets.Decimal
