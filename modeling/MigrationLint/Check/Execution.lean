import MigrationLint.Check.Pool
import MigrationLint.Report.Record

/-!
# Recorded runs

A run checks its candidates one after another or by workers that follow a schedule, and ends in a
record.
-/

namespace MigrationLint.Checker

variable {F : Type} [PathFilter F]

/-- The record of a run over given inputs, if workers follow a given schedule. There is none if the
schedule does not let the workers check all candidates. -/
def record (c : Checker F) (s : FileSystem) (workers : Nat) (schedule : List Move)
    (inputs : List Path) : Option Record :=
  (c.runUnder s workers schedule inputs).map fun (r, _) => .of r

/-- A run over given inputs can end in a record. -/
def EndsIn (c : Checker F) (s : FileSystem) (inputs : List Path) (r : Record) : Prop :=
  ∃ workers schedule, c.record s workers schedule inputs = some r

end MigrationLint.Checker
