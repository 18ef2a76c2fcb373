import Octets.Decimal.Shortest

/-!
# Laying out a decimal

How the digits of a floating-point number are written: positionally with a point where the exponent
of the leading digit lies in a window, otherwise with an exponent. The decisions are the fields of a
`Layout`; this library writes its numbers by `Layout.plain`.
-/

namespace Octets.Decimal

/-- The decisions of one way to write floating-point numbers. -/
structure Layout where
  /-- Leading digits with an exponent from this one on are written positionally, -/
  plainFrom : Int
  /-- and below this one. -/
  plainBelow : Int
  /-- The least number of digits in a written exponent. -/
  exponentWidth : Nat
  notANumber : String
  infinity : String

/-- Numbers are written positionally from `0.0001` to below ten to the sixteenth, with at least one
digit behind the point; otherwise with a signed exponent of at least two digits. -/
def Layout.plain : Layout where
  plainFrom := -4
  plainBelow := 16
  exponentWidth := 2
  notANumber := "nan"
  infinity := "inf"

/-- The same digits, with the names that a data format without numbers for them gives to NaN and
infinity. -/
def Layout.named : Layout := { Layout.plain with notANumber := "NaN", infinity := "Infinity" }

/-- The text of a natural number in base ten, with zeros in front up to `width` digits. -/
def padded (width n : Nat) : List Char :=
  let digits := Nat.toDigits 10 n
  List.replicate (width - digits.length) '0' ++ digits

/-- Writes `0.DIGITS · 10 ^ point` with a point and no exponent. -/
def positional (digits : List Char) (point : Int) : List Char :=
  if point ≤ 0 then '0' :: '.' :: (List.replicate (-point).toNat '0' ++ digits)
  else if digits.length ≤ point.toNat then
    digits ++ List.replicate (point.toNat - digits.length) '0' ++ ['.', '0']
  else digits.take point.toNat ++ '.' :: digits.drop point.toNat

/-- Writes the digits with a point behind the first of them and the exponent `e`. -/
def scientific (layout : Layout) (digits : List Char) (e : Int) : List Char :=
  let rest := digits.drop 1
  digits.take 1 ++ (if rest.isEmpty then [] else '.' :: rest) ++
    ('e' :: (if e < 0 then '-' else '+') :: padded layout.exponentWidth e.natAbs)

/-- Writes a decimal. -/
def Layout.write (layout : Layout) (d : Dec) : List Char :=
  let digits := Nat.toDigits 10 d.digits
  let point : Int := digits.length + d.exponent
  if layout.plainFrom ≤ point - 1 ∧ point - 1 < layout.plainBelow then positional digits point
  else scientific layout digits (point - 1)

/-- Is the sign bit set? -/
def isNegative (x : Float) : Bool := x.toBits >>> 63 == 1

/-- Writes a floating-point number: sign, then the shortest digits that read back. -/
def Layout.float (layout : Layout) (x : Float) : String :=
  if x.isNaN then layout.notANumber
  else
    let sign := if isNegative x then "-" else ""
    if x.isInf then sign ++ layout.infinity
    else
      let finite := Finite.ofBits x.toBits
      if finite.mantissa = 0 then sign ++ "0.0"
      else sign ++ String.ofList (layout.write finite.shortest)

/-- The integer in base ten, with a minus sign in front if it is negative. -/
def integer (n : Int) : List Char :=
  if n < 0 then '-' :: Nat.toDigits 10 n.natAbs else Nat.toDigits 10 n.natAbs

/-- The integer as a string. -/
def integerString (n : Int) : String := String.ofList (integer n)

end Octets.Decimal
