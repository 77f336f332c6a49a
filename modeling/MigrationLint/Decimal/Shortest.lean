import MigrationLint.Decimal.Binary64

/-!
# Shortest decimals

The shortest decimal of a binary number is the one with the fewest digits among those that round
to it, and the nearest to it of these. It lies on the coarsest grid of multiples of a power of ten
that has a point among the numbers that round to it; if a grid has such a point, then one of the
two points next to the number is one.
-/

namespace MigrationLint

/-- A decimal number that is not negative: `coefficient * 10 ^ exponent`. -/
structure Decimal where
  /-- The multiple. -/
  coefficient : Nat
  /-- The power of ten. -/
  exponent : Int
  deriving DecidableEq, Repr

namespace Binary64

/-- The numbers that round to a number of the format, in units of a quarter of its last bit: the
ends count if the mantissa is even. -/
def interval (b : Binary64) : Nat × Nat :=
  let low := if 2 * b.mantissa = mantissaBound ∧ b.exponent ≠ leastExponent then 1 else 2
  (4 * b.mantissa - low, 4 * b.mantissa + 2)

/-- The decimal rounds to the number. -/
def isRoundedFrom (b : Binary64) (d : Decimal) : Bool :=
  let unit := b.exponent - 2
  let decimal := d.coefficient * tenTo d.exponent * twoTo (-unit)
  let scaled := fun n => n * twoTo unit * tenTo (-d.exponent)
  let (low, high) := b.interval
  if b.mantissa % 2 = 0 then scaled low ≤ decimal && decimal ≤ scaled high
  else scaled low < decimal && decimal < scaled high

/-- The greatest multiple of a power of ten that is not above the number; then what the number has
over it and the length of one step, both in the same unit. -/
def below (b : Binary64) (exponent : Int) : Nat × Nat × Nat :=
  let num := b.mantissa * twoTo b.exponent * tenTo (-exponent)
  let den := twoTo (-b.exponent) * tenTo exponent
  (num / den, num % den, den)

/-- The point of a decimal grid that rounds to the number. Of two such points it is the nearer one,
and the greater one if both are equally near. -/
def onGrid? (b : Binary64) (exponent : Int) : Option Decimal :=
  let (coefficient, rest, unit) := b.below exponent
  let low : Decimal := ⟨coefficient, exponent⟩
  let high : Decimal := ⟨coefficient + 1, exponent⟩
  match b.isRoundedFrom low, b.isRoundedFrom high with
  | true, true => some (if 2 * rest < unit then low else high)
  | true, false => some low
  | false, true => some high
  | false, false => none

/-- The first grid that has a point, going through `count` grids from coarse to fine. -/
def search (b : Binary64) : Nat → Int → Decimal
  | 0, exponent => ⟨0, exponent⟩
  | count + 1, exponent => (b.onGrid? exponent).getD (b.search count (exponent - 1))

/-- The shortest decimal that rounds to the number. -/
def shortest (b : Binary64) : Decimal :=
  if b.mantissa = 0 then ⟨0, 0⟩ else b.search 640 309

end Binary64

/-- The decimal in positional notation, with a point only if there are places after it. -/
def Decimal.positional (d : Decimal) : String :=
  let digits := Nat.toDigits 10 d.coefficient
  let places := (-d.exponent).toNat
  if places = 0 then String.ofList (digits ++ List.replicate d.exponent.toNat '0')
  else
    let padded := List.replicate (places + 1 - digits.length) '0' ++ digits
    let whole := padded.length - places
    String.ofList (padded.take whole ++ '.' :: padded.drop whole)

end MigrationLint
