import MigrationLint.Decimal.Shortest
import MigrationLint.Text.Literal
import MigrationLint.Text.Quoted
import MigrationLint.Toml.Value

/-!
# Descriptions of values

How a value is described to somebody who expected one of another type. Numbers are shown as the
machine would hold them: integers of up to 128 bits, and floating-point numbers as shortest
decimals with at least one place. Other numbers have no description.
-/

namespace MigrationLint.Toml

/-- The decimal in positional notation, with at least one place. -/
def withPoint (d : Decimal) : String :=
  let s := d.positional
  if s.toList.contains '.' then s else s ++ ".0"

/-- The sign of a number. -/
def minus (negative : Bool) : String :=
  if negative then "-" else ""

/-- The value of a floating-point literal, unless it is too large. -/
def FloatLiteral.text? : FloatLiteral → Option String
  | infinity negative => some (minus negative ++ "inf")
  | nan => some "NaN"
  | decimal negative coefficient exponent =>
    (Binary64.ofDecimal? coefficient exponent).map fun b =>
      minus negative ++ withPoint b.shortest

/-- The description of an integer, unless it is too large. Those of more than 64 bits name their
type. -/
def describeInteger? (n : Int) : Option String :=
  let plain := "integer `" ++ toString n ++ "`"
  let bound (bits : Nat) : Int := Nat.pow 2 bits
  if -bound 63 ≤ n ∧ n < bound 64 then some plain
  else if -bound 127 ≤ n ∧ n < bound 127 then some (plain ++ " as i128")
  else if 0 ≤ n ∧ n < bound 128 then some (plain ++ " as u128")
  else none

/-- The description of a value, unless it is a number that is too large or has no value. -/
def Value.describe? : Value → Option String
  | string text => some ("string " ++ Text.quoted text)
  | integer value => value.bind describeInteger?
  | float literal => literal.text?.map fun s => "floating point `" ++ s ++ "`"
  | boolean b => some ("boolean `" ++ Text.truth b ++ "`")
  | array _ _ => some "sequence"
  | dateTime | table _ => some "map"

end MigrationLint.Toml
