import MigrationLint.Check.Run
import MigrationLint.Log.Event

/-!
# The trace of a run

The events that a run logs, as if it checked one candidate after another.
-/

namespace MigrationLint

open Log (Event)

/-- The events that a finding leads to. -/
def Finding.events (method : String) (p : Path) : Finding → List Event
  | parsed tree =>
    match tree.method? method with
    | some m => [.methodFound p m.name m.line m.statements.length]
    | none => []
  | rejected e => [.syntaxError p e.text]
  | notAFile | unreadable _ => []

namespace Checker

variable {F : Type} [PathFilter F]

/-- The event that an outcome leads to. -/
def outcomeEvent (o : Outcome) : Event :=
  match o.verdict with
  | .pass => .passed o.path
  | .fail reason => .failed o.path reason

/-- The events for one candidate. -/
def candidateEvents (c : Checker F) (t : FileTree) (p : Path) : List Event :=
  (Finding.ofPath t c.parser p).events c.method p ++ [outcomeEvent (inspect t c.parser c.method p)]

/-- The events of scanning inputs one after another, up to the first one that cannot be scanned. -/
def scanEvents (c : Checker F) (s : FileSystem) : List Path → List Event
  | [] => []
  | p :: inputs =>
    match s.scan c.filter p with
    | .error _ => []
    | .ok files =>
      (s.leftOut c.filter p).map .entrySkipped ++
        .inputScanned p files.length :: c.scanEvents s inputs

/-- The events of resolving inputs. Nothing is scanned if one of them is missing. -/
def resolutionEvents (c : Checker F) (s : FileSystem) (inputs : List Path) : List Event :=
  (if inputs.all s.exists? then c.scanEvents s inputs else []) ++
    match s.resolve c.filter inputs with
    | .error failure => [.resolutionFailed failure.message]
    | .ok _ => []

/-- The events of a run. -/
def events (c : Checker F) (s : FileSystem) (inputs : List Path) : List Event :=
  c.resolutionEvents s inputs ++
    match s.resolve c.filter inputs with
    | .error _ | .ok [] => []
    | .ok candidates =>
      [.checkStarted candidates.length c.parallel] ++
        candidates.flatMap (c.candidateEvents s.toFileTree) ++
        [.checkFinished candidates.length]

end Checker

end MigrationLint
