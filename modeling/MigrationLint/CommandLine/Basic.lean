import MigrationLint.Path
import MigrationLint.Presentation

/-!
# Command lines

What a command line asks for: one of four commands with its options, and options that every command
takes.
-/

namespace MigrationLint

/-- Options that every command takes. -/
structure CommonOptions where
  /-- How many times verbose output was asked for, at most 255. -/
  verbosity : Nat := 0
  /-- Only print what is essential. -/
  quiet : Bool := false
  /-- When to colour output. -/
  colour : ColourMode := .auto
  /-- Use the default settings and read no settings file. -/
  noConfig : Bool := false
  deriving DecidableEq, Repr

/-- Options of the command that checks migrations. -/
structure CheckOptions where
  /-- The files and directories to check. -/
  paths : List Path
  /-- The settings file. -/
  config : Option Path := none
  /-- The name of the rollback method. -/
  method : Option String := none
  /-- The suffix of migrations in directories. -/
  suffix : Option String := none
  /-- Patterns for the paths of entries that are left out. -/
  exclude : List String := []
  /-- The form of the report. -/
  format : OutputFormat := .text
  /-- The file that the report is written to. -/
  output : Option Path := none
  /-- The number of workers. -/
  jobs : Option Nat := none
  /-- Leave out the example of a rollback method that passes. -/
  noExample : Bool := false
  deriving DecidableEq, Repr

/-- The name of a settings file that is meant when none is given. -/
def defaultSettingsFile : Path :=
  ⟨".rollback-guard.toml"⟩

/-- What to do. -/
inductive Command
  /-- Check migrations. -/
  | check (options : CheckOptions)
  /-- Write a settings file, over an existing one only if `force` holds. -/
  | init (output : Path) (force : Bool)
  /-- Say whether a settings file can be used. -/
  | validateSettings (file : Path)
  /-- Show the settings that are in effect. -/
  | showSettings (file : Option Path) (format : OutputFormat)
  deriving DecidableEq, Repr

/-- A whole command line. -/
structure CommandLine where
  /-- Options that every command takes. -/
  common : CommonOptions := {}
  /-- What to do. -/
  command : Command
  deriving DecidableEq, Repr

/-- Why a command line asks for nothing that can be done. -/
inductive UsageError
  /-- An option or an argument has no place where it stands. -/
  | unknownArgument
  /-- An option has no value, or none of the values it may have. -/
  | invalidValue
  /-- The value of an option cannot be read. -/
  | unreadableValue
  /-- An option has a value but takes none. -/
  | tooManyValues
  /-- An option is given twice. -/
  | repeatedOption
  /-- There is nothing to check. -/
  | missingPaths
  /-- A command must follow. -/
  | missingCommand
  /-- A command must follow, and there is nothing else either. -/
  | nothingGiven
  /-- No command has the name. -/
  | unknownCommand
  /-- Help is asked for. -/
  | helpWanted
  /-- The version is asked for. -/
  | versionWanted
  deriving DecidableEq, Repr

end MigrationLint
