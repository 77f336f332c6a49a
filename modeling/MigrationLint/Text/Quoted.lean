import MigrationLint.Text.Hidden

/-!
# Quoted strings

A quoted string stands between double quotes. Quote, backslash, line feed, carriage return, tab
and NUL are written with a backslash, every other hidden character as its code point in lower-case
hexadecimal digits between braces, and all else as it is.
-/

namespace MigrationLint.Text

/-- How one character is written inside quotes. -/
def escape (c : Char) : List Char :=
  if c = '"' then ['\\', '"']
  else if c = '\\' then ['\\', '\\']
  else if c = '\n' then ['\\', 'n']
  else if c = '\r' then ['\\', 'r']
  else if c = '\t' then ['\\', 't']
  else if c = '\x00' then ['\\', '0']
  else if isHidden c then ['\\', 'u', '\x7b'] ++ Nat.toDigits 16 c.toNat ++ ['\x7d']
  else [c]

/-- The string between double quotes. -/
def quoted (s : String) : String :=
  String.ofList ('"' :: s.toList.flatMap escape ++ ['"'])

/-- The quoted strings between brackets, separated by commas. -/
def quotedList (ss : List String) : String :=
  "[" ++ String.intercalate ", " (ss.map quoted) ++ "]"

end MigrationLint.Text
