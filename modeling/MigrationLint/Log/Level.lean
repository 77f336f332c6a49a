/-!
# Log levels

How important a log event is. A level lets through the events that are at least as important.
-/

namespace MigrationLint.Log

/-- The importance of an event. -/
inductive Level
  | error
  | warn
  | info
  | debug
  | trace
  deriving DecidableEq, Repr

namespace Level

/-- The levels from the most to the least important. -/
def all : List Level :=
  [error, warn, info, debug, trace]

/-- The rank of a level; more important levels come first. -/
def rank : Level → Nat
  | error => 1
  | warn => 2
  | info => 3
  | debug => 4
  | trace => 5

/-- The name of a level. -/
def name : Level → String
  | error => "error"
  | warn => "warn"
  | info => "info"
  | debug => "debug"
  | trace => "trace"

/-- The level down to which events are logged when verbose output is asked for `n` times. -/
def ofVerbosity : Nat → Level
  | 0 => warn
  | 1 => debug
  | _ => trace

end Level

end MigrationLint.Log
