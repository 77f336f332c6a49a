import MigrationLint.Check.Candidates
import MigrationLint.Check.Inspection
import MigrationLint.Report.Basic

/-!
# Runs

A run resolves its inputs and inspects every candidate. It always ends in a report: inputs that
cannot be resolved, or that hold no migrations, abort it. `reportBy` says so whatever it takes to
check candidates, and `run` checks them one after another.
-/

namespace MigrationLint

/-- What a run needs to know. -/
structure Checker (F : Type := EntryFilter) where
  /-- Which entries of directories are migrations. -/
  filter : F
  /-- The name of the rollback method. -/
  method : String
  /-- How files are parsed. -/
  parser : SourceParser
  /-- Files may be checked at the same time. -/
  parallel : Bool

namespace Checker

/-- The checker for given settings. A single worker checks files one after another. -/
def ofSettings (parser : SourceParser) (s : Settings) (jobs : Option Nat) :
    Except Failure Checker :=
  (EntryFilter.ofTexts s.suffix s.exclude).map fun filter =>
    ⟨filter, s.method, parser, s.parallel && jobs != some 1⟩

variable {F : Type} [PathFilter F]

/-- The report on given inputs, if candidates are checked in a given way. -/
def reportBy {m : Type → Type} [Monad m] (c : Checker F) (s : FileSystem)
    (checkAll : List Path → m (List Outcome)) (inputs : List Path) : m Report :=
  match s.resolve c.filter inputs with
  | .error failure => pure (.aborted inputs c.method (.ofFailure failure))
  | .ok [] => pure (.aborted inputs c.method .noMigrations)
  | .ok candidates => return .completed inputs c.method (← checkAll candidates)

/-- The report on given inputs, if candidates are checked one after another. -/
def run (c : Checker F) (s : FileSystem) (inputs : List Path) : Report :=
  Id.run <| c.reportBy s
    (fun candidates => pure (candidates.map (inspect s.toFileTree c.parser c.method)))
    inputs

section

variable {m : Type → Type} [Monad m] {c : Checker F} {s : FileSystem}
variable {checkAll : List Path → m (List Outcome)} {inputs : List Path}

/-- Nothing is checked if the inputs cannot be resolved, -/
theorem reportBy_of_error {failure : Failure}
    (h : s.resolve c.filter inputs = .error failure) :
    c.reportBy s checkAll inputs = pure (.aborted inputs c.method (.ofFailure failure)) := by
  rw [reportBy, h]

/-- or if there is nothing to check. -/
theorem reportBy_of_nil (h : s.resolve c.filter inputs = .ok []) :
    c.reportBy s checkAll inputs = pure (.aborted inputs c.method .noMigrations) := by
  rw [reportBy, h]

/-- Otherwise the candidates are checked, in whatever way. -/
theorem reportBy_of_ok {candidates : List Path} (h : s.resolve c.filter inputs = .ok candidates)
    (hsome : candidates ≠ []) :
    c.reportBy s checkAll inputs = do
      return .completed inputs c.method (← checkAll candidates) := by
  rw [reportBy, h]
  cases candidates with
  | nil => exact absurd rfl hsome
  | cons p candidates => rfl

end

section

variable {c : Checker F} {s : FileSystem} {inputs : List Path}

theorem run_of_error {failure : Failure} (h : s.resolve c.filter inputs = .error failure) :
    c.run s inputs = .aborted inputs c.method (.ofFailure failure) := by
  rw [run, reportBy_of_error h]
  rfl

theorem run_of_nil (h : s.resolve c.filter inputs = .ok []) :
    c.run s inputs = .aborted inputs c.method .noMigrations := by
  rw [run, reportBy_of_nil h]
  rfl

theorem run_of_ok {candidates : List Path} (h : s.resolve c.filter inputs = .ok candidates)
    (hsome : candidates ≠ []) :
    c.run s inputs =
      .completed inputs c.method (candidates.map (inspect s.toFileTree c.parser c.method)) := by
  rw [run, reportBy_of_ok h hsome]
  rfl

end

/-- The number of files that a run with a given report has counted. -/
def ticks (r : Report) : Nat :=
  r.filesAnalyzed

end Checker

end MigrationLint
