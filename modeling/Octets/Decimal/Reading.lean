/-!
# Reading decimals

The value of digits that a grammar has already accepted: naturals in a base, and the floating-point
number nearest to a decimal.
-/

namespace Octets.Decimal

/-- Is the character one of `0` to `9`? -/
def isDigit (c : Char) : Bool := 0x30 ≤ c.toNat && c.toNat ≤ 0x39

/-- The value of a character as a digit, letters of either case standing for ten and up. -/
def digitValue (c : Char) : Nat :=
  let n := c.toNat
  if 0x30 ≤ n && n ≤ 0x39 then n - 0x30
  else if 0x61 ≤ n && n ≤ 0x7a then n - 0x61 + 10
  else if 0x41 ≤ n && n ≤ 0x5a then n - 0x41 + 10
  else 0

/-- The value of digits in a base, most significant first. -/
def natural (base : Nat) (digits : List Char) : Nat :=
  digits.foldl (fun acc c => acc * base + digitValue c) 0

/-- The floating-point number nearest to `digits · 10 ^ exponent`. Beyond four hundred places on
either side of the point the answer is infinity or zero, and no power of ten is formed. -/
def nearest (digits : Nat) (exponent : Int) : Float :=
  if digits = 0 then 0.0
  else
    let leading : Int := (Nat.toDigits 10 digits).length + exponent
    if 400 < leading then 1.0 / 0.0
    else if leading < -400 then 0.0
    else Float.ofScientific digits (exponent < 0) exponent.natAbs

/-- The floating-point number `WHOLE.FRACTION · 10 ^ exponent`, with a sign. -/
def float (negative : Bool) (whole fraction : List Char) (exponent : Int) : Float :=
  let size := nearest (natural 10 (whole ++ fraction)) (exponent - fraction.length)
  if negative then -size else size

end Octets.Decimal
