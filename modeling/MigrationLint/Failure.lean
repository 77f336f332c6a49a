import MigrationLint.FileTree.Fault
import MigrationLint.Glob.Expression
import MigrationLint.Path
import MigrationLint.Toml.Excerpt

/-!
# Failures

A failure ends a command. It has a heading, a message, sometimes a detail that names the cause, and
sometimes a suggestion what to do.
-/

namespace MigrationLint

/-- What is wrong with the settings, or with the file that they are kept in. -/
inductive SettingsFault
  /-- The name of the rollback method is empty. -/
  | emptyMethod
  /-- No method can have the name. -/
  | invalidMethod (name : String)
  /-- The suffix is empty. -/
  | emptySuffix
  /-- The suffix has a character that separates the steps of a path. -/
  | separatorInSuffix (suffix : String)
  /-- The file that was asked for is not there. -/
  | fileNotFound (path : Path)
  /-- The file that would be written is there already. -/
  | fileExists (path : Path)
  /-- Anything else, in words. -/
  | other (text : String)
  deriving DecidableEq, Repr

/-- The wording of a fault. -/
def SettingsFault.message : SettingsFault → String
  | emptyMethod => "check.method must not be empty"
  | invalidMethod name => "check.method `" ++ name ++ "` is not a valid method name"
  | emptySuffix => "check.suffix must not be empty"
  | separatorInSuffix suffix =>
    "check.suffix `" ++ suffix ++ "` must not contain path separators"
  | fileNotFound path => "Configuration file not found: " ++ path.text
  | fileExists path =>
    "Configuration file already exists: " ++ path.text ++ ". Use --force to overwrite."
  | other text => text

/-- Why a command ends early. -/
inductive Failure
  /-- The settings cannot be used. -/
  | settings (fault : SettingsFault)
  /-- An input path leads nowhere. -/
  | pathNotFound (path : Path)
  /-- A file that is needed cannot be read. -/
  | unreadable (path : Path) (fault : FileFault)
  /-- An exclude pattern is not well formed. -/
  | invalidPattern (pattern : String) (fault : Glob.Fault)
  /-- The exclude patterns are well formed but cannot be compiled. -/
  | uncompiledPatterns (fault : Glob.CompileFault)
  /-- A file operation failed. -/
  | file (fault : FileFault)
  /-- The settings document is not well formed or does not hold settings. -/
  | document (complaint : Toml.Complaint)
  /-- The output cannot be written as JSON. -/
  | json (text : String)
  deriving DecidableEq, Repr

namespace Failure

/-- The failure in one sentence. -/
def message : Failure → String
  | settings fault => "Configuration error: " ++ fault.message
  | pathNotFound path => "Migration path `" ++ path.text ++ "` is not a directory or file"
  | unreadable path _ => "Failed to read file: " ++ path.text
  | invalidPattern pattern _ => "Invalid glob pattern: " ++ pattern
  | uncompiledPatterns _ => "Invalid glob pattern: combined patterns"
  | file fault => "IO error: " ++ fault.message
  | document complaint => "TOML parse error: " ++ complaint.text
  | json text => "JSON serialization error: " ++ text

/-- The kind of failure, as a heading. -/
def heading : Failure → String
  | settings _ | invalidPattern _ _ | uncompiledPatterns _ | document _ => "Config"
  | pathNotFound _ => "Path"
  | unreadable _ _ => "FileRead"
  | file _ => "IO"
  | json _ => "Output"

/-- The cause of the failure, if the message does not say it. -/
def detail? : Failure → Option String
  | unreadable _ fault => some fault.message
  | invalidPattern pattern fault =>
    some ("error parsing glob '" ++ pattern ++ "': " ++ fault.message)
  | uncompiledPatterns fault => some fault.message
  | _ => none

/-- What to do about the failure, if anything helps. -/
def suggestion? : Failure → Option String
  | pathNotFound _ => some "pass an existing migrations directory or migration file"
  | invalidPattern _ _ | uncompiledPatterns _ =>
    some "check the glob syntax of your exclude patterns"
  | document _ => some "run `rollback-guard config validate` to check the file"
  | _ => none

end Failure

end MigrationLint
