import MigrationLint.Report.Basic
import MigrationLint.Text.Style

/-!
# Reports as text

A report starts with a line for each failure and, on request, one for each pass. The counts follow,
and after failures an example of a rollback method that passes. The report of a run that stopped
early is one line.
-/

namespace MigrationLint

/-- A rollback method that passes. -/
def exampleMethod (name : String) : String :=
  "public function " ++ name ++ "(): void\n\x7b\n" ++
    "    throw new \\Exception('This migration is irreversible and cannot be reverted.');\n\x7d\n"

namespace Report

/-- How a report is shown. -/
structure View where
  /-- The text is coloured. -/
  colour : Bool := false
  /-- Passes are listed too. -/
  listPasses : Bool := false
  /-- Failures are followed by an example of a rollback method that passes. -/
  showExample : Bool := true
  deriving DecidableEq, Repr

namespace View

/-- The line for an outcome that fails. -/
def failureLine (v : View) (method : String) (o : Outcome) : String :=
  match o.verdict.reason? with
  | some reason => Style.paint v.colour [.red] (reason.message o.path method) ++ "\n"
  | none => ""

/-- The line for an outcome that passes. -/
def passLine (v : View) (o : Outcome) : String :=
  Style.paint v.colour [.green] ("✓ Migration `" ++ o.path.text ++ "` is irreversible") ++ "\n"

/-- The line between the parts of a report. -/
def separator : String :=
  "--------------------\n"

/-- The lines with the counts. -/
def summary (v : View) (r : Report) : String :=
  let style := if r.errorsCount > 0 then Style.red else Style.green
  separator ++
    "Files analyzed: " ++ toString r.filesAnalyzed ++ "\n" ++
    "Errors count: " ++ Style.paint v.colour [style] (toString r.errorsCount) ++ "\n"

/-- The lines with the example. -/
def exampleLines (v : View) (method : String) : String :=
  separator ++
    "Each irreversible migration file should have following code:\n\n" ++
    Style.paint v.colour [.cyan] (exampleMethod method)

end View

/-- The report as text. -/
def text (v : View) (r : Report) : String :=
  match r.abortMessage? with
  | some message => Style.paint v.colour [.red] message ++ "\n"
  | none =>
    String.join (r.failures.map (v.failureLine r.method)) ++
      (if v.listPasses then String.join (r.passes.map v.passLine) else "") ++
      v.summary r ++
      (if v.showExample && r.wantsExample then v.exampleLines r.method else "")

end Report

end MigrationLint
