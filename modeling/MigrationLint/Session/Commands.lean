import MigrationLint.Check.Trace
import MigrationLint.CommandLine.Basic
import MigrationLint.Report.Document
import MigrationLint.Report.Text
import MigrationLint.Session.World
import MigrationLint.Settings.Template

/-!
# Commands

Each command turns the world that it finds into a result. A command that fails leaves the files as
they are and ends in exit code 1 with a diagnostic.
-/

namespace MigrationLint

open Log (Event)

namespace World

/-- The result of a command that fails. -/
def failed (w : World) (mode : ColourMode) (notices : List Notice) (f : Failure) : Result :=
  ⟨1, "", notices ++ [.diagnostic (w.environment.coloursDiagnostics mode) (.ofFailure f)], w.tree⟩

/-- The result of a command that succeeds and writes no file. -/
def succeeded (w : World) (notices : List Notice) (output : String) : Result :=
  ⟨0, output, notices, w.tree⟩

/-! ## Settings in effect -/

/-- The settings in effect. -/
def loadSettings (w : World) (file : Option Path) (noConfig : Bool) :
    Except Failure LoadedSettings :=
  LoadedSettings.load w.tree.readTextIfPresent w.settingsDirectories file noConfig

/-- The events of loading settings. -/
def settingsEvents (noConfig : Bool) (loaded : Except Failure LoadedSettings) : List Notice :=
  if noConfig then [.event .settingsDisabled]
  else
    match loaded with
    | .error _ => []
    | .ok l => [.event (l.source.elim .settingsDefaulted .settingsLoaded)]

/-- The event of using settings from a file. -/
def useEvents (l : LoadedSettings) : List Notice :=
  (l.source.map fun p => .event (.settingsUsed p)).toList

end World

/-- The settings with those that a command line gives in their place. Exclude patterns add up. -/
def Settings.override (s : Settings) (o : CheckOptions) : Settings :=
  { s with
    method := o.method.getD s.method
    suffix := o.suffix.getD s.suffix
    exclude := s.exclude ++ o.exclude
    showExample := s.showExample && !o.noExample }

namespace World

/-! ## Checking migrations -/

/-- The number of workers that is asked for. Zero is no number of workers. -/
def workers (jobs : Option Nat) : Option Nat :=
  jobs.filter (· != 0)

/-- The warning about a number of workers that cannot be meant. -/
def workerWarnings (w : World) (mode : ColourMode) (jobs : Option Nat) : List Notice :=
  if jobs = some 0 then
    [.diagnostic (w.environment.coloursDiagnostics mode)
      (.warning "--jobs 0 is not a thread count" (some "using one thread per core"))]
  else []

/-- The settings of a check, which must be usable. -/
def settingsFor (l : LoadedSettings) (o : CheckOptions) : Except Failure Settings :=
  let s := l.settings.override o
  s.validate.map fun _ => s

/-- A report in the form that is asked for. Only text on standard output is coloured. -/
def render (w : World) (common : CommonOptions) (o : CheckOptions) (s : Settings) (r : Report) :
    String :=
  match o.format with
  | .json => r.documentText
  | .text =>
    let mode := if o.output.isSome then .never else common.colour
    r.text ⟨w.environment.coloursOutput mode, 1 ≤ common.verbosity, s.showExample⟩

/-- The result of a check that has come to a report. -/
def conclude (w : World) (common : CommonOptions) (o : CheckOptions) (notices : List Notice)
    (r : Report) (text : String) : Result :=
  match o.output with
  | none => ⟨r.exitCode, if common.quiet then "" else text, notices, w.tree⟩
  | some p =>
    match w.tree.writeText p text with
    | .error fault => w.failed common.colour notices (.file fault)
    | .ok t => ⟨r.exitCode, "", notices, t⟩

/-- Checks migrations. -/
def check (w : World) (common : CommonOptions) (o : CheckOptions) : Result :=
  let loaded := w.loadSettings o.config common.noConfig
  let notices := settingsEvents common.noConfig loaded
  match loaded with
  | .error f => w.failed common.colour notices f
  | .ok l =>
    let notices := notices ++ useEvents l
    match settingsFor l o with
    | .error f => w.failed common.colour notices f
    | .ok s =>
      let notices := notices ++ w.workerWarnings common.colour o.jobs
      match Checker.ofSettings w.parser s (workers o.jobs) with
      | .error f => w.failed common.colour notices f
      | .ok c =>
        let r := c.run w.tree o.paths
        w.conclude common o (notices ++ (c.events w.tree o.paths).map .event) r
          (w.render common o s r)

/-! ## The settings file -/

/-- Writes a settings file with the defaults. -/
def init (w : World) (output : Path) (force : Bool) : Result :=
  if w.tree.exists? output && !force then w.failed .auto [] (.settings (.fileExists output))
  else
    match w.tree.writeText output Settings.template with
    | .error fault => w.failed .auto [] (.file fault)
    | .ok t => ⟨0, "Created configuration file: " ++ output.text ++ "\n", [], t⟩

/-- The settings in a file that must be there. -/
def readSettings (w : World) (file : Path) : Except Failure Settings :=
  if w.tree.exists? file then
    match w.tree.readText file with
    | .error fault => .error (.unreadable file fault)
    | .ok text => Settings.parse text
  else .error (.settings (.fileNotFound file))

/-- Says whether a settings file can be used. -/
def validateSettings (w : World) (common : CommonOptions) (file : Path) : Result :=
  match w.readSettings file with
  | .error f => w.failed common.colour [] f
  | .ok _ => w.succeeded [] ("Configuration is valid: " ++ file.text ++ "\n")

/-- Shows the settings that are in effect. -/
def showSettings (w : World) (common : CommonOptions) (file : Option Path)
    (format : OutputFormat) : Result :=
  let loaded := w.loadSettings file common.noConfig
  let notices := settingsEvents common.noConfig loaded
  match loaded with
  | .error f => w.failed common.colour notices f
  | .ok l =>
    w.succeeded notices <|
      match format with
      | .json => l.settings.documentText
      | .text => l.text

/-- Does what a command line asks for. -/
def execute (w : World) (c : CommandLine) : Result :=
  match c.command with
  | .check o => w.check c.common o
  | .init output force => w.init output force
  | .validateSettings file => w.validateSettings c.common file
  | .showSettings file format => w.showSettings c.common file format

/-- The log filter of a command line. -/
def logFilter (w : World) (c : CommandLine) : Log.Filter :=
  .choose w.environment.logFilter c.common.verbosity

end World

end MigrationLint
