/-!
# Digits and truth values

How numbers and truth values are written.
-/

namespace MigrationLint.Text

/-- The value of a hexadecimal digit. -/
def hexDigit? (c : Char) : Option Nat :=
  if c.isDigit then some (c.toNat - 48)
  else if 'a' ≤ c ∧ c ≤ 'f' then some (c.toNat - 87)
  else if 'A' ≤ c ∧ c ≤ 'F' then some (c.toNat - 55)
  else none

/-- The number that digits write in a base of at most sixteen. Other characters count as zero. -/
def ofDigits (base : Nat) (digits : List Char) : Nat :=
  digits.foldl (fun n c => base * n + (hexDigit? c).getD 0) 0

/-- The number that decimal digits write, which may have a plus sign. -/
def natural? (cs : List Char) : Option Nat :=
  let digits := match cs with
    | '+' :: ds => ds
    | ds => ds
  if !digits.isEmpty && digits.all Char.isDigit then some (ofDigits 10 digits) else none

/-- The name of a truth value. -/
def truth (b : Bool) : String :=
  if b then "true" else "false"

/-- The text with small letters in place of the capital letters of ASCII. -/
def lowered (s : String) : String :=
  String.ofList (s.toList.map Char.toLower)

end MigrationLint.Text
