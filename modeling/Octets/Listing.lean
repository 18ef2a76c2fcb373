import Octets.Decimal.Residue
import Octets.Value

/-!
# The order of sets

A set of numbers lists them as they lie in a table whose size is a power of two. The place of a
number is its residue modulo the size; if that is taken, the number goes on through the table until
a place is free. Members of other kinds have no places of their own and keep the order in which they
came.
-/

namespace Octets.Listing

/-- The number of places in the table for so many members. -/
def size (count : Nat) : Nat := if count ≤ 4 then 8 else Nat.pow 2 (Nat.log2 (2 * count) + 1)

/-- The number of places behind a taken one that are looked at next, if the table is that long. -/
def run : Nat := 9

/-- The number, below two to the power 64, that leads a value through a table. -/
def key? (v : Value) : Option Nat :=
  let residue := match v, v.asWhole? with
    | .float x, _ => if x.isNaN then none else some (Decimal.floatResidue x)
    | _, some n => some (Decimal.intResidue n)
    | _, none => none
  residue.map fun n => (n % 0x10000000000000000).toNat

/-- The first free place on the way through a table; `rest` is what is left of the key. -/
def place (table : Array (Option Value)) : Nat → Nat → Nat → Nat
  | 0, i, _ => i
  | fuel + 1, i, rest =>
    let count := if i + run < table.size then run + 1 else 1
    match (List.range count).find? fun k => (table.getD (i + k) none).isNone with
    | some k => i + k
    | none =>
      let rest := rest / 32
      place table fuel ((i * 5 + 1 + rest) % table.size) rest

/-- Puts a value with a key into a table. -/
def put (table : Array (Option Value)) (v : Value) (key : Nat) : Array (Option Value) :=
  table.setIfInBounds (place table (table.size + 64) (key % table.size) key) (some v)

/-- The members of a set in the order in which it lists them. -/
def order (members : List Value) : List Value :=
  match members.mapM fun v => (key? v).map fun key => (v, key) with
  | none => members
  | some keyed =>
    let empty : Array (Option Value) := Array.replicate (size members.length) none
    (keyed.foldl (fun table e => put table e.1 e.2) empty).toList.filterMap id

end Octets.Listing
