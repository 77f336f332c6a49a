import MigrationLint.CommandLine.Basic

/-!
# The manual

What the program tells about itself.
-/

namespace MigrationLint.CommandLine

/-- The name of the program with its version. -/
def versionText : String :=
  "rollback-guard 0.1.0\n"

/-- The help on command lines. -/
def helpText : String :=
  "Verify that database migrations declare themselves irreversible\n\n" ++
    "Usage: rollback-guard [OPTIONS] <COMMAND>\n\n" ++
    "Commands:\n" ++
    "  check            Check that migrations have a throwing rollback method\n" ++
    "  init             Generate a default configuration file\n" ++
    "  config validate  Validate configuration file syntax and values\n" ++
    "  config show      Display the effective configuration\n" ++
    "  help             Print this message\n\n" ++
    "Options:\n" ++
    "  -v, --verbose        Increase output verbosity (-v, -vv for more)\n" ++
    "  -q, --quiet          Suppress non-essential output\n" ++
    "      --color <COLOR>  Control color output: auto, always, never\n" ++
    "      --no-config      Skip loading configuration file\n" ++
    "  -h, --help           Print help\n" ++
    "  -V, --version        Print version\n"

/-- The exit code of a command line that asks for nothing that can be done. -/
def exitCodeOf : UsageError → Nat
  | .helpWanted | .versionWanted => 0
  | _ => 2

/-- What a usage error says. -/
def messageOf : UsageError → String
  | .unknownArgument => "unexpected argument"
  | .invalidValue => "a value is required for an option, or is not one of its possible values"
  | .unreadableValue => "invalid value for an option"
  | .tooManyValues => "unexpected value for an option that takes none"
  | .repeatedOption => "an option cannot be used multiple times"
  | .missingPaths => "the following required arguments were not provided: <PATHS>..."
  | .missingCommand | .nothingGiven => "a command must be given"
  | .unknownCommand => "unrecognized command"
  | .helpWanted => "help"
  | .versionWanted => "version"

end MigrationLint.CommandLine
