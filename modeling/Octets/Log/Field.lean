import Octets.Decimal.Reading
import Octets.Decimal.Rounded
import Octets.Value

/-!
# Fields of a template

How one value is shown in a field. The letter of the field says in which form, and its layout says
where the form is padded, cut or rounded. A value of a kind that the letter does not show has no
form, and neither has an integer with too many digits in base ten.

The letters are `s`, `r` and `a` for the plain, quoted and ASCII forms of any value, `d`, `i`, `u`,
`o`, `x` and `X` for whole numbers, `f` and `F` for numbers with decimal places, `e` and `E` for
numbers with an exponent, `g` and `G` for the shorter of these two, and `c` for one character.
-/

namespace Octets.Log

/-- How a field is laid out. -/
structure Layout where
  left : Bool
  plus : Bool
  blank : Bool
  zero : Bool
  alternate : Bool
  width : Nat
  precision : Option Nat
  deriving DecidableEq, Repr

namespace Layout

/-- Fills up to the width. -/
def pad (layout : Layout) (s : List Char) : List Char :=
  let fill := List.replicate (layout.width - s.length) ' '
  if layout.left then s ++ fill else fill ++ s

/-- The text, no longer than the precision. -/
def cut (layout : Layout) (s : List Char) : List Char :=
  match layout.precision with
  | some n => s.take n
  | none => s

/-- Lays out a number: its sign, its mark, and its digits. -/
def number (layout : Layout) (negative : Bool) (mark digits : List Char) : List Char :=
  let sign :=
    if negative then ['-'] else if layout.plus then ['+'] else if layout.blank then [' '] else []
  let size := sign.length + mark.length + digits.length
  if layout.zero && !layout.left then
    sign ++ mark ++ List.replicate (layout.width - size) '0' ++ digits
  else layout.pad (sign ++ mark ++ digits)

/-! ## Whole numbers -/

/-- The digits of a whole number, at least as many as the precision. -/
def wholeDigits (layout : Layout) (base n : Nat) : List Char :=
  let digits := Nat.toDigits base n
  List.replicate (layout.precision.getD 0 - digits.length) '0' ++ digits

/-- A whole number in a base, behind the mark of the base if that is asked. -/
def whole (layout : Layout) (base : Nat) (mark : List Char) (n : Int) : List Char :=
  layout.number (n < 0) (if layout.alternate then mark else []) (layout.wholeDigits base n.natAbs)

/-! ## Numbers with a fraction -/

/-- Digits with a point behind so many of them; one at the end only if that is asked. -/
def pointed (layout : Layout) (digits : List Char) (point : Nat) : List Char :=
  let fraction := digits.drop point
  digits.take point ++ (if fraction.isEmpty && !layout.alternate then [] else '.' :: fraction)

/-- With decimal places. -/
def fixed (layout : Layout) (x : Decimal.Finite) : List Char :=
  let places := layout.precision.getD 6
  let digits := Decimal.padded (places + 1) (x.atPlaces places)
  layout.pointed digits (digits.length - places)

/-- An exponent of at least two digits with its sign. -/
def exponent (e : Int) : List Char :=
  'e' :: (if e < 0 then '-' else '+') :: Decimal.padded 2 e.natAbs

/-- With one digit before the point, and an exponent. -/
def exponential (layout : Layout) (x : Decimal.Finite) : List Char :=
  let places := layout.precision.getD 6
  let (n, e) := x.significant places
  layout.pointed (Decimal.padded (places + 1) n) 1 ++ exponent e

/-- The digits without zeros at the end, as long as there are more than `least`. -/
def trimmed (least : Nat) (digits : List Char) : List Char :=
  digits.take least ++ ((digits.drop least).reverse.dropWhile (· == '0')).reverse

/-- With significant digits: positional if the exponent of the first is at least -4 and below the
number of digits, and otherwise with an exponent. Zeros at the end are left out, if they are not
asked for. -/
def general (layout : Layout) (x : Decimal.Finite) : List Char :=
  let count := max (layout.precision.getD 6) 1
  let (n, e) := x.significant (count - 1)
  let digits := Decimal.padded count n
  let shown (least : Nat) (digits : List Char) :=
    if layout.alternate then digits else trimmed least digits
  if -4 ≤ e ∧ e < count then
    let leading := List.replicate (-e).toNat '0'
    let point := e.toNat + 1
    layout.pointed (shown point (leading ++ digits)) point
  else layout.pointed (shown 1 digits) 1 ++ exponent e

/-- Lays out a floating-point number by the form of a finite one. -/
def float (layout : Layout) (form : Decimal.Finite → List Char) (x : Float) : List Char :=
  if x.isNaN then layout.number false [] "nan".toList
  else
    let digits := if x.isInf then "inf".toList else form (.ofBits x.toBits)
    layout.number (Decimal.isNegative x) [] digits

end Layout

/-! ## Values -/

namespace Field

/-- The number that a value is, with its fraction cut off. -/
def truncated? (v : Value) : Option Int :=
  match v, v.asWhole? with
  | _, some n => some n
  | .float x, none =>
    if x.isNaN || x.isInf then none
    else
      let size := Decimal.Finite.ofBits x.toBits
      let n : Int :=
        (size.mantissa * Nat.pow 2 size.exponent.toNat) / Nat.pow 2 (-size.exponent).toNat
      some (if Decimal.isNegative x then -n else n)
  | _, none => none

/-- The floating-point number that a value is. A whole number may be too large to be one. -/
def floating? (v : Value) : Option Float :=
  match v, v.asWhole? with
  | .float x, _ => some x
  | _, some n =>
    let x := Decimal.float (n < 0) (Nat.toDigits 10 n.natAbs) [] 0
    if x.isInf then none else some x
  | _, none => none

/-- A text with every character outside ASCII by its number. -/
def ascii (s : List Char) : List Char :=
  s.flatMap fun c => if c.toNat < 0x80 then [c] else Text.Quoted.byNumber (Text.Units.number c)

/-- The one character that a value stands for. -/
def character? (v : Value) : Option Char :=
  match v.asWhole?, (v.asText?).map String.toList with
  | some n, _ => if 0 ≤ n ∧ n.toNat.isValidChar then some (Char.ofNat n.toNat) else none
  | none, some [c] => some c
  | none, _ => none

/-- Letters in upper case. -/
def upper (s : List Char) : List Char := s.map Char.toUpper

/-- One value in a field. -/
def show? (contents : Nat → Bytes) (layout : Layout) (letter : Char) (v : Value) :
    Option (List Char) :=
  let decimal := ((truncated? v).filter Decimal.isWritable).map (layout.whole 10 [])
  match letter with
  | 's' => if v.isWritable then some (layout.pad (layout.cut (v.display contents).toList)) else none
  | 'r' => if v.isWritable then some (layout.pad (layout.cut (v.shown contents).toList)) else none
  | 'a' =>
    if v.isWritable then some (layout.pad (layout.cut (ascii (v.shown contents).toList))) else none
  | 'd' => decimal
  | 'i' => decimal
  | 'u' => decimal
  | 'o' => v.asWhole?.map (layout.whole 8 ['0', 'o'])
  | 'x' => v.asWhole?.map (layout.whole 16 ['0', 'x'])
  | 'X' => v.asWhole?.map fun n => upper (layout.whole 16 ['0', 'x'] n)
  | 'f' => (floating? v).map (layout.float layout.fixed)
  | 'F' => (floating? v).map fun x => upper (layout.float layout.fixed x)
  | 'e' => (floating? v).map (layout.float layout.exponential)
  | 'E' => (floating? v).map fun x => upper (layout.float layout.exponential x)
  | 'g' => (floating? v).map (layout.float layout.general)
  | 'G' => (floating? v).map fun x => upper (layout.float layout.general x)
  | 'c' => (character? v).map fun c => layout.pad [c]
  | _ => none

end Field

end Octets.Log
