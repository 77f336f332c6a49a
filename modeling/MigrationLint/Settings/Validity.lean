import MigrationLint.Failure
import MigrationLint.Settings.Basic

/-!
# Usable settings

Settings are usable if the method name is an identifier of PHP, the suffix is not empty and has no
separator, and every exclude pattern is well formed. Of several faults the first in this order is
reported.
-/

namespace MigrationLint

/-- The character may start an identifier: it is a letter, an underscore or not ASCII. -/
def isIdentifierStart (c : Char) : Bool :=
  c = '_' || c.isAlpha || 0x80 ≤ c.toNat

/-- The character may stand in an identifier after the first one. -/
def isIdentifierRest (c : Char) : Bool :=
  c = '_' || c.isAlphanum || 0x80 ≤ c.toNat

/-- The characters form an identifier. -/
def isIdentifier : List Char → Bool
  | [] => false
  | c :: cs => isIdentifierStart c && cs.all isIdentifierRest

/-- The character separates the steps of a path on some system. -/
def isSeparator (c : Char) : Bool :=
  c = '/' || c = '\\'

namespace Settings

/-- What is wrong with a method name. -/
def methodFault? (method : String) : Option SettingsFault :=
  if method.toList.isEmpty then some .emptyMethod
  else if isIdentifier method.toList then none
  else some (.invalidMethod method)

/-- What is wrong with a suffix. -/
def suffixFault? (suffix : String) : Option SettingsFault :=
  if suffix.toList.isEmpty then some .emptySuffix
  else if suffix.toList.any isSeparator then some (.separatorInSuffix suffix)
  else none

end Settings

/-- The patterns with the given texts, or the first text that is not a pattern. -/
def Glob.parseAll : List String → Except Failure (List Glob)
  | [] => .ok []
  | text :: texts =>
    match Glob.parse text with
    | .error fault => .error (.invalidPattern text fault)
    | .ok glob => (parseAll texts).map (glob :: ·)

/-- Accepts settings that are usable, and otherwise says what is wrong with them. -/
def Settings.validate (s : Settings) : Except Failure Unit :=
  match methodFault? s.method with
  | some fault => .error (.settings fault)
  | none =>
    match suffixFault? s.suffix with
    | some fault => .error (.settings fault)
    | none => (Glob.parseAll s.exclude).map fun _ => ()

end MigrationLint
