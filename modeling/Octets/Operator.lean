import Octets.Decimal.Reading
import Octets.Source

/-!
# Operators

The comparison and the addition of values of any kinds, and where they fail.

Numbers are compared by their exact amounts, whatever their kinds; NaN stands in no relation. Texts
are compared by their characters and byte strings by their bytes, the first difference deciding.
Numbers are added, texts and sequences put one behind the other; all else fails.
-/

namespace Octets

/-- A relation that two values may stand in. -/
inductive Relation where
  | less
  | greater
  | atLeast
  deriving DecidableEq, Repr

namespace Relation

/-- The sign of the relation, as faults give it. -/
def sign : Relation → String
  | less => "<"
  | greater => ">"
  | atLeast => ">="

/-- Does the relation hold between values in this order? -/
def holds : Relation → Ordering → Bool
  | less, o => o == .lt
  | greater, o => o == .gt
  | atLeast, o => o != .lt

end Relation

/-! ## Numbers -/

/-- A number of either kind. -/
inductive Number where
  | whole (n : Int)
  | real (x : Float)

namespace Number

/-- The sign of an infinite number; zero for all others. -/
def infinity : Number → Int
  | whole _ => 0
  | real x => if x.isInf then (if Decimal.isNegative x then -1 else 1) else 0

/-- A finite number as a fraction. -/
def fraction : Number → Int × Nat
  | whole n => (n, 1)
  | real x =>
    let size := Decimal.Finite.ofBits x.toBits
    let top : Int := size.mantissa * Nat.pow 2 size.exponent.toNat
    (if Decimal.isNegative x then -top else top, Nat.pow 2 (-size.exponent).toNat)

def isNan : Number → Bool
  | whole _ => false
  | real x => x.isNaN

/-- The order of two numbers by their amounts. -/
def order? (a b : Number) : Option Ordering :=
  if a.isNan || b.isNan then none
  else if a.infinity ≠ 0 ∨ b.infinity ≠ 0 then some (compare a.infinity b.infinity)
  else
    let (top, bottom) := a.fraction
    let (top', bottom') := b.fraction
    some (compare (top * bottom') (top' * bottom))

/-- The floating-point number nearest to a number, if it is not beyond all of them. -/
def toFloat : Number → Except Fault Float
  | real x => .ok x
  | whole n =>
    let x := Decimal.float (n < 0) (Nat.toDigits 10 n.natAbs) [] 0
    if x.isInf then .error (.overflow .float) else .ok x

/-- The sum, which is whole if both numbers are. -/
def add : Number → Number → Except Fault Number
  | whole m, whole n => .ok (whole (m + n))
  | a, b => do
    let x ← a.toFloat
    let y ← b.toFloat
    return real (x + y)

end Number

namespace Value

/-- The number that a value is. -/
def number? (v : Value) : Option Number :=
  match v, v.asWhole? with
  | float x, _ => some (.real x)
  | _, some n => some (.whole n)
  | _, none => none

/-- The value of a number. -/
def ofNumber : Number → Value
  | .whole n => int n
  | .real x => float x

/-! ## Comparing -/

/-- The byte string of a value that has an order: not that of a view. -/
def ordered? (contents : Nat → Bytes) : Value → Option Bytes
  | view _ => none
  | v => v.asBytes? contents

/-- Do two values stand in a relation? Only numbers do, and two texts or two byte strings. -/
def related (contents : Nat → Bytes) (r : Relation) (a b : Value) : Except Fault Bool :=
  match a.number?, b.number?, a.asText?, b.asText? with
  | some m, some n, _, _ => .ok ((m.order? n).any r.holds)
  | _, _, some s, some t => .ok (r.holds (compare s t))
  | _, _, _, _ =>
    match a.ordered? contents, b.ordered? contents with
    | some s, some t => .ok (r.holds (compare (s.map (·.toNat)) (t.map (·.toNat))))
    | _, _ => .error (.wrongKind (.notOrdered r.sign a.kind b.kind))

/-- Is a value below zero? -/
def isBelowZero (contents : Nat → Bytes) (v : Value) : Except Fault Bool :=
  related contents .less v (int 0)

/-! ## Adding -/

/-- The sum of two values. -/
def plus (contents : Nat → Bytes) (a b : Value) : Except Fault Value :=
  match a.number?, b.number?, a, b with
  | some m, some n, _, _ => ofNumber <$> m.add n
  | _, _, list s, list t => .ok (list (s ++ t))
  | _, _, list _, b => .error (.wrongKind (.notConcatenable b.kind "list"))
  | _, _, tuple s, tuple t => .ok (tuple (s ++ t))
  | _, _, tuple _, b => .error (.wrongKind (.notConcatenable b.kind "tuple"))
  | _, _, bytes s, b => match b.asBytes? contents with
    | some t => .ok (bytes (s ++ t))
    | none => .error (.wrongKind (.notAppendable b.kind "bytes"))
  | _, _, buffer ref, b => match b.asBytes? contents with
    | some t => .ok (bytes (contents ref ++ t))
    | none => .error (.wrongKind (.notAppendable b.kind "bytearray"))
  | _, _, a, b =>
    match a.asText?, b.asText? with
    | some s, some t => .ok (text (s ++ t))
    | some _, none => .error (.wrongKind (.notConcatenable b.kind "str"))
    | none, _ => .error (.wrongKind (.notOperands "+" a.kind b.kind))

end Value

end Octets
