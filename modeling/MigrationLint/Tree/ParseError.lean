import MigrationLint.Path
import MigrationLint.Tree.Basic

/-!
# Parse errors and source parsers

A source parser turns the text of a file into a syntax tree or says why it cannot.
-/

namespace MigrationLint

/-- A place in a text. -/
structure Position where
  /-- The line, counted from one. -/
  line : Nat
  /-- The column, counted from one. -/
  column : Nat
  deriving DecidableEq, Repr

/-- Why a text has no syntax tree. -/
structure ParseError where
  /-- What is wrong. -/
  message : String
  /-- Where, if the parser knows. -/
  position : Option Position := none
  deriving DecidableEq, Repr

/-- The error in one line of text, with its line number if that is known. -/
def ParseError.text (e : ParseError) : String :=
  match e.position with
  | some p => e.message ++ " on line " ++ toString p.line
  | none => e.message

/-- Turns a text, read from a path, into a syntax tree. -/
abbrev SourceParser :=
  Path → String → Except ParseError Tree

end MigrationLint
