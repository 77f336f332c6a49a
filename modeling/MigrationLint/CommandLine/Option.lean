import MigrationLint.CommandLine.Basic
import MigrationLint.Text.Literal

/-!
# Options

The options of command lines: their names, whether they take a value, how their values are read,
and where they may stand. A level is the place in a command line where the same options and
commands may stand: the start, and after each command.
-/

namespace MigrationLint.CommandLine

/-- An option by its name. -/
inductive OptionName
  | verbose
  | quiet
  | colour
  | noConfig
  | config
  | method
  | suffix
  | exclude
  | format
  | showFormat
  | output
  | jobs
  | noExample
  | force
  | help
  | version
  deriving DecidableEq, Repr

namespace OptionName

/-- The long name. -/
def long : OptionName → String
  | verbose => "verbose"
  | quiet => "quiet"
  | colour => "color"
  | noConfig => "no-config"
  | config => "config"
  | method => "method"
  | suffix => "suffix"
  | exclude => "exclude"
  | format | showFormat => "format"
  | output => "output"
  | jobs => "jobs"
  | noExample => "no-example"
  | force => "force"
  | help => "help"
  | version => "version"

/-- The short name, if there is one. -/
def short? : OptionName → Option Char
  | verbose => some 'v'
  | quiet => some 'q'
  | config => some 'c'
  | method => some 'm'
  | suffix => some 's'
  | exclude => some 'x'
  | format | showFormat => some 'f'
  | output => some 'o'
  | jobs => some 'j'
  | help => some 'h'
  | version => some 'V'
  | colour | noConfig | noExample | force => none

/-- The option takes a value. -/
def takesValue : OptionName → Bool
  | colour | config | method | suffix | exclude | format | showFormat | output | jobs => true
  | verbose | quiet | noConfig | noExample | force | help | version => false

/-- The option may be given more than once at one level. -/
def isRepeatable : OptionName → Bool
  | verbose | exclude => true
  | _ => false

end OptionName

/-- An option with its value, as it was given. -/
inductive Given
  | verbose
  | quiet
  | colour (mode : ColourMode)
  | noConfig
  | config (file : Path)
  | method (name : String)
  | suffix (suffix : String)
  | exclude (pattern : String)
  | format (format : OutputFormat)
  | showFormat (format : OutputFormat)
  | output (file : Path)
  | jobs (count : Nat)
  | noExample
  | force
  deriving DecidableEq, Repr

/-- The option that was given. -/
def Given.name : Given → OptionName
  | verbose => .verbose
  | quiet => .quiet
  | colour _ => .colour
  | noConfig => .noConfig
  | config _ => .config
  | method _ => .method
  | suffix _ => .suffix
  | exclude _ => .exclude
  | format _ => .format
  | showFormat _ => .showFormat
  | output _ => .output
  | jobs _ => .jobs
  | noExample => .noExample
  | force => .force

/-- Reads a path, which must not be empty. -/
def readPath (value : String) : Except UsageError Path :=
  if value = "" then .error .invalidValue else .ok ⟨value⟩

/-- Reads a number of up to 64 bits, which may have a plus sign. -/
def readCount? (value : String) : Option Nat :=
  (Text.natural? value.toList).filter (· < Nat.pow 2 64)

/-- The given error in place of nothing. -/
def orError {α : Type} (e : UsageError) (a : Option α) : Except UsageError α :=
  a.elim (.error e) .ok

/-- Reads the value of an option. -/
def OptionName.read (o : OptionName) (value : String) : Except UsageError Given :=
  match o with
  | colour => (orError .invalidValue (ColourMode.ofName? value)).map .colour
  | config => (readPath value).map .config
  | method => .ok (.method value)
  | suffix => .ok (.suffix value)
  | exclude => .ok (.exclude value)
  | format => (orError .unreadableValue (OutputFormat.ofNameIgnoringCase? value)).map .format
  | showFormat => (orError .invalidValue (OutputFormat.ofName? value)).map .showFormat
  | output => (readPath value).map .output
  | jobs => (orError .unreadableValue (readCount? value)).map .jobs
  | verbose | quiet | noConfig | noExample | force | help | version => .error .tooManyValues

/-- What an option without a value means. -/
def OptionName.readFlag : OptionName → Except UsageError Given
  | verbose => .ok .verbose
  | quiet => .ok .quiet
  | noConfig => .ok .noConfig
  | noExample => .ok .noExample
  | force => .ok .force
  | help => .error .helpWanted
  | version => .error .versionWanted
  | colour | config | method | suffix | exclude | format | showFormat | output | jobs =>
    .error .invalidValue

/-- A place in a command line. -/
inductive Level
  /-- The start. -/
  | top
  /-- After `check`. -/
  | check
  /-- After `init`. -/
  | init
  /-- After `config`. -/
  | config
  /-- After `config validate`. -/
  | configValidate
  /-- After `config show`. -/
  | configShow
  /-- After `help`. -/
  | help
  deriving DecidableEq, Repr

namespace Level

/-- Options that may stand at every level. -/
def commonOptions : List OptionName :=
  [.verbose, .quiet, .colour, .noConfig, .help]

/-- The options that may stand at a level. -/
def options : Level → List OptionName
  | top => .version :: commonOptions
  | check =>
    [.config, .method, .suffix, .exclude, .format, .output, .jobs, .noExample] ++ commonOptions
  | init => [.output, .force] ++ commonOptions
  | config => commonOptions
  | configValidate => .config :: commonOptions
  | configShow => [.config, .showFormat] ++ commonOptions
  | help => []

/-- The commands that may stand at a level. -/
def commands : Level → List (String × Level)
  | top => [("check", check), ("init", init), ("config", config), ("help", help)]
  | config => [("validate", configValidate), ("show", configShow), ("help", help)]
  | _ => []

/-- The level after a command. -/
def command? (l : Level) (name : String) : Option Level :=
  (l.commands.find? fun c => c.1 == name).map (·.2)

/-- The option with a given long name. -/
def long? (l : Level) (name : String) : Option OptionName :=
  l.options.find? fun o => o.long == name

/-- The option with a given short name. -/
def short? (l : Level) (c : Char) : Option OptionName :=
  l.options.find? fun o => o.short? == some c

/-- Paths may stand at the level. -/
def takesPaths (l : Level) : Bool :=
  l = check

end Level

end MigrationLint.CommandLine
