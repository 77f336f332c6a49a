import MigrationLint.Failure
import MigrationLint.Text.Style

/-!
# Diagnostics

What a command tells besides its output: failures with their detail and suggestion, and warnings.
-/

namespace MigrationLint

/-- A message for the user of a command. -/
inductive Diagnostic
  /-- An error with a heading. -/
  | error (heading message : String) (detail suggestion : Option String)
  /-- A warning. -/
  | warning (message : String) (detail : Option String)
  deriving DecidableEq, Repr

namespace Diagnostic

/-- The message that tells of a failure. -/
def ofFailure (f : Failure) : Diagnostic :=
  error f.heading f.message f.detail? f.suggestion?

/-- The line with a detail, if there is one. -/
def detailLine (colour : Bool) : Option String → String
  | none => ""
  | some d => "  " ++ Style.paint colour [.dim] ("× " ++ d) ++ "\n"

/-- The line with a suggestion, if there is one. -/
def suggestionLine (colour : Bool) : Option String → String
  | none => ""
  | some s => "  " ++ Style.paint colour [.cyan] "help:" ++ " " ++ s ++ "\n"

/-- The message as lines of text. -/
def text (colour : Bool) : Diagnostic → String
  | error heading message detail suggestion =>
    Style.paint colour [.bold, .red] ("✖ " ++ heading ++ ":") ++ " " ++ message ++ "\n" ++
      detailLine colour detail ++ suggestionLine colour suggestion
  | warning message detail =>
    Style.paint colour [.bold, .yellow] "⚠ Warning:" ++ " " ++ message ++ "\n" ++
      detailLine colour detail

end Diagnostic

end MigrationLint
