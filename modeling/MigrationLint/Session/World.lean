import MigrationLint.Diagnostics
import MigrationLint.FileTree.Access
import MigrationLint.Log.Filter
import MigrationLint.Presentation
import MigrationLint.Settings.Location
import MigrationLint.Tree.ParseError

/-!
# The world of a command

What a command finds around it, and what it leaves behind: an exit code, output, notices and perhaps
a file that it has written.
-/

namespace MigrationLint

/-- The environment of a command. -/
structure Environment where
  /-- The home directory of the user. -/
  home : Option String := none
  /-- The directory for the settings of all programs. It counts only if its path is absolute. -/
  configHome : Option String := none
  /-- The value of the variable that asks for no colour. -/
  noColour : Option String := none
  /-- Which events are logged. -/
  logFilter : Option String := none
  /-- Output goes to a terminal. -/
  outputIsTerminal : Bool := false
  /-- Notices go to a terminal. -/
  noticesAreOnTerminal : Bool := false
  deriving DecidableEq, Repr

/-- What a command finds around it. -/
structure World where
  /-- The files. -/
  tree : FileTree
  /-- The environment. -/
  environment : Environment
  /-- The parser for migrations. -/
  parser : SourceParser

/-- What a command tells besides its output. -/
inductive Notice
  /-- Something that is logged. -/
  | event (event : Log.Event)
  /-- A message for the user. -/
  | diagnostic (colour : Bool) (diagnostic : Diagnostic)
  deriving DecidableEq, Repr

/-- What a command leaves behind. -/
structure Result where
  /-- The exit code. -/
  exitCode : Nat
  /-- The output. -/
  output : String
  /-- What it has told, in order. -/
  notices : List Notice
  /-- The files. -/
  tree : FileTree
  deriving DecidableEq, Repr

namespace Environment

/-- The name of the directory with the user's settings. -/
def directoryName : String :=
  "rollback-guard"

/-- The directory for the settings of all programs. -/
def configDirectory (e : Environment) : Option Path :=
  match e.configHome.filter fun s => (Path.mk s).isAbsolute with
  | some s => some ⟨s⟩
  | none => (e.home.filter fun s => s != "").map fun s => (Path.mk s).join ".config"

/-- The directory with the user's settings. -/
def userDirectory (e : Environment) : Option Path :=
  e.configDirectory.map fun p => p.join directoryName

/-- Output is coloured. -/
def coloursOutput (e : Environment) (mode : ColourMode) : Bool :=
  mode.colours e.outputIsTerminal e.noColour

/-- Diagnostics are coloured. -/
def coloursDiagnostics (e : Environment) (mode : ColourMode) : Bool :=
  mode.colours e.noticesAreOnTerminal e.noColour

/-- Logged events are coloured, unless the environment asks for no colour by a value that is not
empty. -/
def coloursEvents (e : Environment) : Bool :=
  e.noColour.all fun s => s == ""

end Environment

namespace World

/-- The path of the working directory. -/
def workingDirectory (w : World) : Path :=
  ⟨"/" ++ String.intercalate "/" w.tree.working⟩

/-- The directories in which settings are looked for. -/
def settingsDirectories (w : World) : SettingsDirectories :=
  ⟨some w.workingDirectory, w.environment.userDirectory⟩

end World

/-- The notice as text. Without a filter nothing is logged. -/
def Notice.text (e : Environment) (filter : Option Log.Filter) : Notice → String
  | event x => if filter.any fun f => f.allows x then x.text e.coloursEvents else ""
  | diagnostic colour d => d.text colour

/-- The notices as text. -/
def Result.noticesText (r : Result) (e : Environment) (filter : Option Log.Filter) : String :=
  String.join (r.notices.map (Notice.text e filter))

end MigrationLint
