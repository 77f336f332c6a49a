import MigrationLint.Check.Verdict
import MigrationLint.Failure

/-!
# Reports

A report says what a run was asked to check and either the outcome for every migration or why the
run stopped before it checked any. Counts and exit code follow from the outcomes: a run succeeds if
it checked at least one file and none failed.
-/

namespace MigrationLint

/-- Why a run stops before it checks files. -/
inductive Abort
  /-- An input path leads nowhere. -/
  | pathNotFound (path : Path)
  /-- The inputs could not be resolved. -/
  | scanFailed (message : String)
  /-- The inputs hold no migrations. -/
  | noMigrations
  deriving DecidableEq, Repr

namespace Abort

/-- The abort that a failure leads to. -/
def ofFailure : Failure → Abort
  | .pathNotFound path => pathNotFound path
  | failure => scanFailed failure.message

/-- The abort in a sentence, given the inputs of the run. -/
def message (searched : List Path) : Abort → String
  | pathNotFound path => "Migration path `" ++ path.text ++ "` is not a directory or file"
  | scanFailed message => "Could not list migration files: " ++ message
  | noMigrations =>
    "No migration files found in path " ++
      String.intercalate ", " (searched.map fun p => "`" ++ p.text ++ "`")

end Abort

/-- What a run has found. -/
structure Report where
  /-- The input paths. -/
  searched : List Path
  /-- The name of the rollback method. -/
  method : String
  /-- The outcome for each file, in the order of the run. -/
  outcomes : List Outcome
  /-- Why the run stopped early, if it did. -/
  abort : Option Abort
  deriving DecidableEq, Repr

namespace Report

/-- The report of a run that has checked every file. -/
def completed (searched : List Path) (method : String) (outcomes : List Outcome) : Report :=
  ⟨searched, method, outcomes, none⟩

/-- The report of a run that stopped before it checked any file. -/
def aborted (searched : List Path) (method : String) (abort : Abort) : Report :=
  ⟨searched, method, [], some abort⟩

/-- The outcomes that fail, in order. -/
def failures (r : Report) : List Outcome :=
  r.outcomes.filter fun o => o.verdict.isFail

/-- The outcomes that pass, in order. -/
def passes (r : Report) : List Outcome :=
  r.outcomes.filter fun o => o.verdict.isPass

/-- The number of files that were checked. -/
def filesAnalyzed (r : Report) : Nat :=
  r.outcomes.length

/-- The number of files that failed. -/
def errorsCount (r : Report) : Nat :=
  r.failures.length

/-- The run has checked at least one file and none failed. -/
def isSuccess (r : Report) : Bool :=
  r.filesAnalyzed != 0 && r.errorsCount == 0

/-- The exit code of a command that ends in the report. -/
def exitCode (r : Report) : Nat :=
  if r.isSuccess then 0 else 1

/-- The report calls for an example of a rollback method that passes. -/
def wantsExample (r : Report) : Bool :=
  0 < r.errorsCount

/-- Why the run stopped early, in a sentence. -/
def abortMessage? (r : Report) : Option String :=
  r.abort.map fun a => a.message r.searched

end Report

end MigrationLint
