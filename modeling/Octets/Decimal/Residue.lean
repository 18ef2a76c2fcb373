import Octets.Decimal.Layout

/-!
# Residues

Numbers modulo the prime `2 ^ 61 - 1`, with their signs: whole numbers, and floating-point numbers
as fractions. Equal numbers of the two kinds have equal residues. Minus one is kept free.
-/

namespace Octets.Decimal

/-- The prime modulo which numbers are reduced. -/
def residuePrime : Nat := 0x1fffffffffffffff

/-- The size of a finite number modulo the prime. Two has order 61 there, so its powers, also those
below one, are taken modulo 61. -/
def residue (size : Finite) : Nat :=
  size.mantissa * Nat.pow 2 (size.exponent % 61).toNat % residuePrime

/-- A residue with a sign. -/
def signedResidue (negative : Bool) (size : Nat) : Int :=
  let signed : Int := if negative then -size else size
  if signed = -1 then -2 else signed

/-- The residue of a floating-point number; infinity has one of its own. -/
def floatResidue (x : Float) : Int :=
  let size :=
    if x.isNaN then 0
    else if x.isInf then 314159
    else residue (Finite.ofBits x.toBits)
  signedResidue (isNegative x) size

/-- The residue of a whole number. -/
def intResidue (n : Int) : Int := signedResidue (n < 0) (n.natAbs % residuePrime)

end Octets.Decimal
