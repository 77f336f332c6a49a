import MigrationLint.Json.Printer
import MigrationLint.Report.Basic

/-!
# Reports as documents

The machine-readable form of a report is a JSON object. A result has a reason and a message if it
fails, and the object has an error if the run stopped early.
-/

namespace MigrationLint.Report

/-- A member that is there only if it has a value. -/
def optionalMember (name : String) (value : Option String) : List (String × Json) :=
  match value with
  | none => []
  | some s => [(name, .string s)]

/-- The outcome for a file. -/
def outcomeDocument (method : String) (o : Outcome) : Json :=
  let reason := o.verdict.reason?
  .object <|
    [("path", .string o.path.text),
      ("status", .string (if reason.isSome then "failed" else "passed"))] ++
    optionalMember "reason" (reason.map Reason.code) ++
    optionalMember "message" (reason.map fun x => x.message o.path method)

/-- What a report says in numbers. -/
structure Summary where
  /-- The number of files that were checked. -/
  filesAnalyzed : Nat
  /-- The number of files that failed. -/
  errorsCount : Nat
  /-- The exit code of a command that ends in the report. -/
  exitCode : Int
  deriving DecidableEq, Repr

/-- The numbers that follow from the outcomes. -/
def summary (r : Report) : Summary :=
  ⟨r.filesAnalyzed, r.errorsCount, r.exitCode⟩

/-- The numbers as a JSON object. -/
def Summary.document (s : Summary) : Json :=
  .object
    [("files_analyzed", .number s.filesAnalyzed),
      ("errors_count", .number s.errorsCount),
      ("exit_code", .number s.exitCode)]

/-- The report as a JSON object, with given numbers. -/
def documentWith (r : Report) (s : Summary) : Json :=
  .object <|
    [("summary", s.document),
      ("method", .string r.method),
      ("searched_paths", .strings (r.searched.map Path.text)),
      ("results", .list (r.outcomes.map (outcomeDocument r.method)))] ++
    optionalMember "error" r.abortMessage?

/-- The JSON object as text. -/
def documentTextWith (r : Report) (s : Summary) : String :=
  (r.documentWith s).text ++ "\n"

/-- The report as a JSON object. -/
def document (r : Report) : Json :=
  r.documentWith r.summary

/-- The report as the text of a JSON object. -/
def documentText (r : Report) : String :=
  r.documentTextWith r.summary

end MigrationLint.Report
