import MigrationLint.CommandLine.Manual
import MigrationLint.CommandLine.Reader
import MigrationLint.Session.Commands
import MigrationLint.Session.Snapshot

/-!
# The program

Reads a snapshot of the world from standard input, does what the command line asks for, prints what
the command leaves behind and writes the file that it has changed.
-/

namespace MigrationLint.Program

/-- Tells about a command line that asks for nothing that can be done. -/
def refuse (e : UsageError) : IO UInt32 := do
  match e with
  | .helpWanted => IO.print CommandLine.helpText
  | .versionWanted => IO.print CommandLine.versionText
  | _ => IO.eprintln ("error: " ++ CommandLine.messageOf e)
  return UInt32.ofNat (CommandLine.exitCodeOf e)

/-- Does what a command line asks for. -/
def execute (c : CommandLine) : IO UInt32 := do
  match Json.parse (← (← IO.getStdin).getLine) with
  | none =>
    IO.eprintln "error: the snapshot is not a JSON value"
    return 2
  | some j =>
    let w := Snapshot.world j
    let r := w.execute c
    IO.eprint (r.noticesText w.environment (some (w.logFilter c)))
    IO.print r.output
    for (path, bytes) in Snapshot.changes w.tree r.tree do
      IO.FS.writeBinFile path (ByteArray.mk bytes.toArray)
    return UInt32.ofNat r.exitCode

end MigrationLint.Program

open MigrationLint in
/-- Runs the program. -/
def main (arguments : List String) : IO UInt32 :=
  match CommandLine.parse arguments with
  | .error e => Program.refuse e
  | .ok c => Program.execute c
