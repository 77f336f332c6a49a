import MigrationLint.Report.Document
import MigrationLint.Report.Text

/-!
# Recorded reports

A report is recorded with its numbers, which are counted once, when the report is made. Whoever asks
for them later gets what has been recorded, and so does whoever reads the record as text.
-/

namespace MigrationLint

namespace Report.Summary

/-- The numbers that are counted over outcomes. No files at all are a failure. -/
def ofOutcomes (outcomes : List Outcome) : Summary :=
  let files := outcomes.length
  let errors := (outcomes.filter fun o => o.verdict.isFail).length
  ⟨files, errors, if files = 0 ∨ 0 < errors then 1 else 0⟩

/-- The numbers of a run that stopped before it checked any file. -/
def ofAbort : Summary :=
  ⟨0, 0, 1⟩

end Report.Summary

namespace Report

/-- The lines with given numbers. -/
def View.summaryWith (v : View) (s : Summary) : String :=
  let style := if s.errorsCount > 0 then Style.red else Style.green
  separator ++
    "Files analyzed: " ++ toString s.filesAnalyzed ++ "\n" ++
    "Errors count: " ++ Style.paint v.colour [style] (toString s.errorsCount) ++ "\n"

/-- The report as text, with given numbers. -/
def textWith (v : View) (r : Report) (s : Summary) : String :=
  match r.abortMessage? with
  | some message => Style.paint v.colour [.red] message ++ "\n"
  | none =>
    String.join (r.failures.map (v.failureLine r.method)) ++
      (if v.listPasses then String.join (r.passes.map v.passLine) else "") ++
      v.summaryWith s ++
      (if v.showExample && 0 < s.errorsCount then v.exampleLines r.method else "")

@[simp]
theorem textWith_summary (v : View) (r : Report) : r.textWith v r.summary = r.text v :=
  rfl

end Report

/-- A report and its numbers. -/
structure Record where
  /-- The report. -/
  report : Report
  /-- The numbers that were counted when the report was made. -/
  summary : Report.Summary
  deriving DecidableEq, Repr

namespace Record

/-- The record of a report, with its numbers as they are counted when the report is made. -/
def of (r : Report) : Record :=
  ⟨r, if r.abort.isSome then .ofAbort else .ofOutcomes r.outcomes⟩

/-- The exit code of a command that ends in the report. -/
def exitCode (r : Record) : Int :=
  r.summary.exitCode

/-- The report calls for an example of a rollback method that passes. -/
def wantsExample (r : Record) : Bool :=
  0 < r.summary.errorsCount

end Record

end MigrationLint
