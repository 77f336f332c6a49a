/-!
# Binary floating point

The finite numbers of the 64-bit binary format, as exact multiples of powers of two, and rounding
to them. A positive number is rounded to the nearest number of the format, a tie to the one with
an even mantissa. Numbers that round beyond the largest one of the format have no result.
-/

namespace MigrationLint

/-- A number of the format that is not negative: `mantissa * 2 ^ exponent`. The mantissa has at
most 53 bits; it has exactly 53 unless the exponent is the least one. -/
structure Binary64 where
  /-- The multiple. -/
  mantissa : Nat
  /-- The power of two. -/
  exponent : Int
  deriving DecidableEq, Repr

namespace Binary64

/-- The number zero. -/
def zero : Binary64 :=
  ⟨0, -1074⟩

/-- The least exponent of the format. -/
def leastExponent : Int := -1074

/-- The greatest exponent of the format. -/
def greatestExponent : Int := 971

/-- The quotient of two numbers rounded to the nearest integer, a tie to the even one. -/
def roundDiv (num den : Nat) : Nat :=
  let quotient := num / den
  let twice := 2 * (num % den)
  if twice > den ∨ (twice = den ∧ quotient % 2 = 1) then quotient + 1 else quotient

/-- A power of two; one for a negative exponent. -/
def twoTo (exponent : Int) : Nat :=
  Nat.pow 2 exponent.toNat

/-- A power of ten; one for a negative exponent. -/
def tenTo (exponent : Int) : Nat :=
  Nat.pow 10 exponent.toNat

/-- The bound of a mantissa: it has at most 53 bits. -/
def mantissaBound : Nat := twoTo 53

/-- The fraction `num / (den * 2 ^ exponent)` as numerator and denominator. -/
def scale (num den : Nat) (exponent : Int) : Nat × Nat :=
  (num * twoTo (-exponent), den * twoTo exponent)

/-- The exponent at which the integer part of a fraction has 53 bits, or the least one. -/
def exponentOf (num den : Nat) : Int :=
  let guess : Int := (num.log2 : Int) - den.log2 - 53
  let (n, d) := scale num den guess
  max leastExponent (if n / d < mantissaBound then guess else guess + 1)

/-- The fraction rounded to the format, unless it is too large. -/
def ofFraction? (num den : Nat) : Option Binary64 :=
  if num = 0 then some zero
  else
    let exponent := exponentOf num den
    let (n, d) := scale num den exponent
    let mantissa := roundDiv n d
    let rounded : Binary64 :=
      if mantissa < mantissaBound then ⟨mantissa, exponent⟩ else ⟨mantissa / 2, exponent + 1⟩
    if rounded.exponent ≤ greatestExponent then some rounded else none

/-- The number `coefficient * 10 ^ exponent` rounded to the format, unless it is too large. The
order of magnitude decides the extreme cases, so that no huge power is ever computed. -/
def ofDecimal? (coefficient : Nat) (exponent : Int) : Option Binary64 :=
  if coefficient = 0 then some zero
  else
    let digits : Int := (Nat.toDigits 10 coefficient).length
    if exponent + digits > 310 then none
    else if exponent + digits < -330 then some zero
    else ofFraction? (coefficient * tenTo exponent) (tenTo (-exponent))

end Binary64

end MigrationLint
