import MigrationLint.Json.Basic

/-!
# Writing JSON

Every item of a list and every member of an object stands on a line of its own, indented by two
spaces for each level. Empty lists and objects are closed on the spot. In strings the quote, the
backslash and control characters are escaped and all else stands as it is.
-/

namespace MigrationLint.Json

/-- How one character is written inside quotes. -/
def escape (c : Char) : List Char :=
  if c = '"' then ['\\', '"']
  else if c = '\\' then ['\\', '\\']
  else if c = '\x08' then ['\\', 'b']
  else if c = '\x0c' then ['\\', 'f']
  else if c = '\n' then ['\\', 'n']
  else if c = '\r' then ['\\', 'r']
  else if c = '\t' then ['\\', 't']
  else if c.toNat < 0x20 then
    ['\\', 'u', '0', '0', Nat.digitChar (c.toNat / 16), Nat.digitChar (c.toNat % 16)]
  else [c]

/-- A string between quotes. -/
def quote (s : String) : List Char :=
  '"' :: s.toList.flatMap escape ++ ['"']

/-- The start of a line at a given level. -/
def newLine (level : Nat) : List Char :=
  '\n' :: List.replicate (2 * level) ' '

/-- Written parts between brackets, each on a line of its own. -/
def block (opening closing : Char) (level : Nat) : List (List Char) → List Char
  | [] => [opening, closing]
  | part :: parts =>
    opening :: newLine (level + 1) ++ part ++
      parts.flatMap (fun p => ',' :: newLine (level + 1) ++ p) ++ newLine level ++ [closing]

mutual

/-- A value that starts on a line of a given level. -/
def print (level : Nat) : Json → List Char
  | null => "null".toList
  | boolean true => "true".toList
  | boolean false => "false".toList
  | number n => (toString n).toList
  | string s => quote s
  | list items => block '[' ']' level (printItems (level + 1) items)
  | object members => block '\x7b' '\x7d' level (printMembers (level + 1) members)

/-- The items of a list. -/
def printItems (level : Nat) : List Json → List (List Char)
  | [] => []
  | j :: js => print level j :: printItems level js

/-- The members of an object. -/
def printMembers (level : Nat) : List (String × Json) → List (List Char)
  | [] => []
  | (name, j) :: js => (quote name ++ ':' :: ' ' :: print level j) :: printMembers level js

end

/-- A value as a text. -/
def text (j : Json) : String :=
  String.ofList (j.print 0)

end MigrationLint.Json
