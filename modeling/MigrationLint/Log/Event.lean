import MigrationLint.Check.Verdict
import MigrationLint.Log.Level
import MigrationLint.Text.Literal
import MigrationLint.Text.Quoted
import MigrationLint.Text.Style

/-!
# Log events

What a command logs about its work. An event has a level, a message and fields; its target names the
part of the program that it comes from.
-/

namespace MigrationLint.Log

/-- Something that happened. -/
inductive Event
  /-- No settings file is read, as asked. -/
  | settingsDisabled
  /-- Settings were read from a file. -/
  | settingsLoaded (file : Path)
  /-- No settings file is there. -/
  | settingsDefaulted
  /-- The settings in effect come from a file. -/
  | settingsUsed (file : Path)
  /-- An entry of a directory is no candidate. -/
  | entrySkipped (entry : Path)
  /-- An input path was resolved. -/
  | inputScanned (input : Path) (count : Nat)
  /-- The inputs could not be resolved. -/
  | resolutionFailed (message : String)
  /-- The candidates are known. -/
  | checkStarted (count : Nat) (parallel : Bool)
  /-- A file has no syntax tree. -/
  | syntaxError (file : Path) (message : String)
  /-- A rollback method was found. -/
  | methodFound (file : Path) (method : String) (line statements : Nat)
  /-- A file passed. -/
  | passed (file : Path)
  /-- A file failed. -/
  | failed (file : Path) (reason : Reason)
  /-- All candidates have been checked. -/
  | checkFinished (count : Nat)
  deriving DecidableEq, Repr

namespace Event

/-- How important an event is. -/
def level : Event → Level
  | entrySkipped _ | methodFound _ _ _ _ => .trace
  | _ => .debug

/-- What an event says. -/
def message : Event → String
  | settingsDisabled => "configuration loading disabled"
  | settingsLoaded _ => "loaded configuration"
  | settingsDefaulted => "no configuration file found, using defaults"
  | settingsUsed _ => "using configuration file"
  | entrySkipped _ => "skipped entry"
  | inputScanned _ _ => "scanned input"
  | resolutionFailed _ => "path resolution failed"
  | checkStarted _ _ => "checking migrations"
  | syntaxError _ _ => "syntax error"
  | methodFound _ _ _ _ => "rollback method found"
  | passed _ => "passed"
  | failed _ _ => "failed"
  | checkFinished _ => "migrations checked"

/-- The fields of an event, in order. -/
def fields : Event → List (String × String)
  | settingsDisabled | settingsDefaulted => []
  | settingsLoaded file | settingsUsed file | entrySkipped file | passed file =>
    [("path", file.text)]
  | inputScanned input count => [("input", input.text), ("count", toString count)]
  | resolutionFailed message => [("error", message)]
  | checkStarted count parallel => [("count", toString count), ("parallel", Text.truth parallel)]
  | syntaxError file message => [("path", file.text), ("error", message)]
  | methodFound file method line statements =>
    [("path", file.text), ("method", Text.quoted method), ("line", toString line),
      ("statements", toString statements)]
  | failed file reason => [("path", file.text), ("reason", reason.text)]
  | checkFinished count => [("checked", toString count)]

/-- The part of the program that an event comes from. -/
def target : Event → String
  | settingsDisabled => "rollback_guard::commands"
  | settingsLoaded _ | settingsDefaulted => "rollback_guard::config::loader"
  | settingsUsed _ => "rollback_guard::commands::check"
  | entrySkipped _ | inputScanned _ _ => "rollback_guard::scanner"
  | syntaxError _ _ => "rollback_guard::syntax::php"
  | methodFound _ _ _ _ => "rollback_guard::checker"
  | resolutionFailed _ | checkStarted _ _ | passed _ | failed _ _ | checkFinished _ =>
    "rollback_guard::runner"

/-- The style of a level. -/
def levelStyle : Level → Style
  | .error => .red
  | .warn => .yellow
  | .info => .green
  | .debug => .blue
  | .trace => .magenta

/-- The name of a level, five characters wide. -/
def levelText : Level → String
  | .error => "ERROR"
  | .warn => " WARN"
  | .info => " INFO"
  | .debug => "DEBUG"
  | .trace => "TRACE"

/-- One field, with a space in front. -/
def fieldText (colour : Bool) (field : String × String) : String :=
  " " ++ Style.paint colour [.italic] field.1 ++ Style.paint colour [.dim] "=" ++ field.2

/-- The event as a line of text. -/
def text (colour : Bool) (e : Event) : String :=
  Style.paint colour [levelStyle e.level] (levelText e.level) ++ " " ++ e.message ++
    String.join (e.fields.map (fieldText colour)) ++ "\n"

end Event

end MigrationLint.Log
