import Octets.Decimal.Shortest

/-!
# Rounded decimals

A binary floating-point number rounded to decimal places or to significant digits, by exact
arithmetic on naturals. A half goes to the even neighbour.
-/

namespace Octets.Decimal

/-- The whole number nearest to `num / den`; a half goes to the even neighbour. -/
def roundDiv (num den : Nat) : Nat :=
  let low := num / den
  let part := num % den
  if den < 2 * part || (2 * part == den && low % 2 == 1) then low + 1 else low

/-- The result is at most half a unit away from the quotient. -/
theorem roundDiv_near (num : Nat) {den : Nat} (h : 0 < den) :
    2 * num ≤ 2 * (roundDiv num den * den) + den ∧
      2 * (roundDiv num den * den) ≤ 2 * num + den := by
  have hdiv := Nat.div_add_mod num den
  have hlt := Nat.mod_lt num h
  rw [Nat.mul_comm] at hdiv
  unfold roundDiv
  by_cases hup : (den < 2 * (num % den) || (2 * (num % den) == den && num / den % 2 == 1)) = true
  · rw [if_pos hup, Nat.add_mul, Nat.one_mul]
    have hhalf : den ≤ 2 * (num % den) := by
      simp only [Bool.or_eq_true, Bool.and_eq_true, decide_eq_true_eq, beq_iff_eq] at hup
      omega
    omega
  · rw [if_neg hup]
    have hhalf : 2 * (num % den) ≤ den := by
      simp only [Bool.or_eq_true, decide_eq_true_eq, not_or] at hup
      omega
    omega

namespace Finite

/-- The whole number nearest to `x · 10 ^ places`. -/
def atPlaces (x : Finite) (places : Int) : Nat :=
  roundDiv (x.mantissa * Nat.pow 2 x.exponent.toNat * Nat.pow 10 places.toNat)
    (Nat.pow 2 (-x.exponent).toNat * Nat.pow 10 (-places).toNat)

/-- The number rounded to `count + 1` digits, and the exponent of the first of them. Rounding up may
give one digit more, a one with zeros behind it. -/
def significant (x : Finite) (count : Nat) : Nat × Int :=
  if x.mantissa = 0 then (0, 0)
  else
    let first := x.scale - 1
    let n := x.atPlaces (count - first)
    if n = Nat.pow 10 (count + 1) then (Nat.pow 10 count, first + 1) else (n, first)

end Finite

end Octets.Decimal
