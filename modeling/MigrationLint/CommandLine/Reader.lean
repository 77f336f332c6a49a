import MigrationLint.CommandLine.Option

/-!
# Reading command lines

Arguments are read from left to right. A value that stands in an argument of its own is read only
when the next option or path is met, or at the end, and after the command that follows it. The
first error counts. Options that every command takes may be given at several levels, and the
innermost one counts.
-/

namespace MigrationLint.CommandLine

/-- Arguments that have been met but not read yet. -/
inductive Pending
  /-- An option that takes a value, with its value if that has been met too. -/
  | option (name : OptionName) (value : Option String)
  /-- Paths. -/
  | paths (texts : List String)
  deriving DecidableEq, Repr

/-- What has been read at a level. -/
structure Progress where
  /-- The options, in order. -/
  given : List Given := []
  /-- The paths, in order. -/
  paths : List Path := []
  /-- What is to be read next. -/
  pending : Option Pending := none
  /-- No more options follow. -/
  pathsOnly : Bool := false
  deriving DecidableEq, Repr

namespace Progress

/-- The next argument is the value of an option. -/
def awaitsValue (p : Progress) : Bool :=
  match p.pending with
  | some (.option _ none) => true
  | _ => false

/-- Adds an option unless it is repeated and must not be. -/
def add (p : Progress) (name : OptionName) (read : Except UsageError Given) :
    Except UsageError Progress :=
  if !name.isRepeatable && p.given.any (fun g => g.name == name) then .error .repeatedOption
  else read.map fun g => { p with given := p.given ++ [g] }

/-- Reads what is pending. -/
def settle (p : Progress) : Except UsageError Progress :=
  let q := { p with pending := none }
  match p.pending with
  | none => .ok q
  | some (.option _ none) => .error .invalidValue
  | some (.option name (some value)) => q.add name (name.read value)
  | some (.paths texts) => (texts.mapM readPath).map fun ps => { q with paths := q.paths ++ ps }

/-- Meets an option without a value of its own. -/
def flag (p : Progress) (name : OptionName) : Except UsageError Progress := do
  (← p.settle).add name name.readFlag

/-- Meets an option that takes a value, which may be attached to it. -/
def option (p : Progress) (name : OptionName) (attached : Option String) :
    Except UsageError Progress := do
  let p ← p.settle
  match attached with
  | some value => p.add name (name.read value)
  | none => return { p with pending := some (.option name none) }

/-- Meets an option by its long name. -/
def long (p : Progress) (level : Level) (text : List Char) : Except UsageError Progress :=
  let attached := match text.dropWhile (· ≠ '=') with
    | [] => none
    | _ :: value => some (String.ofList value)
  match level.long? (String.ofList (text.takeWhile (· ≠ '='))) with
  | none => .error .unknownArgument
  | some name =>
    if name.takesValue then p.option name attached
    else if attached.isSome then .error .tooManyValues
    else p.flag name

/-- Meets options by their short names, the last of which may have a value attached. -/
def short (p : Progress) (level : Level) : List Char → Except UsageError Progress
  | [] => .ok p
  | c :: cs =>
    match level.short? c with
    | none => .error .unknownArgument
    | some name =>
      if name.takesValue then
        p.option name <|
          match cs with
          | [] => none
          | '=' :: value => some (String.ofList value)
          | value => some (String.ofList value)
      else
        match p.flag name with
        | .error e => .error e
        | .ok p => p.short level cs

/-- Meets a path. -/
def path (p : Progress) (text : String) : Except UsageError Progress :=
  match p.pending with
  | some (.paths texts) => .ok { p with pending := some (.paths (texts ++ [text])) }
  | _ => p.settle.map fun p => { p with pending := some (.paths [text]) }

/-- Meets the value of the option that awaits one. -/
def value (p : Progress) (text : String) : Progress :=
  match p.pending with
  | some (.option name _) => { p with pending := some (.option name (some text)) }
  | _ => p

/-- The error for an argument that is neither an option nor a command nor a path. -/
def misplaced (p : Progress) (level : Level) (text : String) : UsageError :=
  if level.commands.isEmpty || (p.pathsOnly && (level.command? text).isSome) then .unknownArgument
  else .unknownCommand

/-- Meets an argument that is not a command. -/
def argument (p : Progress) (level : Level) (text : String) : Except UsageError Progress :=
  let other : Except UsageError Progress :=
    if level.takesPaths then p.path text else .error (p.misplaced level text)
  if p.pathsOnly then other
  else
    match text.toList with
    | ['-', '-'] => .ok { p with pathsOnly := true }
    | '-' :: '-' :: cs => p.long level cs
    | '-' :: c :: cs => p.short level (c :: cs)
    | _ => if p.awaitsValue then .ok (p.value text) else other

/-- The command that an argument names, if commands can stand where it stands. -/
def command? (p : Progress) (level : Level) (text : String) : Option Level :=
  if p.pathsOnly || p.awaitsValue then none else level.command? text

/-- Reads what is left at the end of a level, and sees to it that nothing is missing. -/
def finish (p : Progress) (level : Level) (hasCommand : Bool) : Except UsageError Progress := do
  let p ← p.settle
  if !level.commands.isEmpty && !hasCommand then
    if p.given.isEmpty then .error .nothingGiven else .error .missingCommand
  else if level.takesPaths && p.paths.isEmpty then .error .missingPaths
  else return p

end Progress

/-- What a request for help on a command leads to. -/
def helpOn (level : Level) : List String → UsageError
  | [] => .helpWanted
  | name :: names =>
    match level.command? name with
    | none => .unknownCommand
    | some l => helpOn l names

/-- What the levels of a command line hold, the outermost one first. -/
abbrev Levels :=
  List (Level × Progress)

/-- Reads the arguments of a level and of those inside. -/
def readLevels (level : Level) (p : Progress) : List String → Except UsageError Levels
  | [] => (p.finish level false).map fun p => [(level, p)]
  | text :: rest =>
    match p.command? level text with
    | some .help => .error (helpOn level rest)
    | some l => do
      let inner ← readLevels l {} rest
      let p ← p.finish level true
      return (level, p) :: inner
    | none =>
      match p.argument level text with
      | .error e => .error e
      | .ok p => readLevels level p rest

/-- The last value in a list of options that a function picks. -/
def pick? {α : Type} (f : Given → Option α) (given : List Given) : Option α :=
  (given.filterMap f).getLast?

/-- The greatest verbosity. -/
def maxVerbosity : Nat := 255

/-- The options of the innermost level that gives a certain one. -/
def innermost (levels : Levels) (name : OptionName) : List Given :=
  match levels.reverse.find? fun l => l.2.given.any fun g => g.name == name with
  | some l => l.2.given
  | none => []

/-- The options that every command takes. -/
def commonOptions (levels : Levels) : CommonOptions where
  verbosity := min maxVerbosity ((innermost levels .verbose).count .verbose)
  quiet := !(innermost levels .quiet).isEmpty
  colour := (pick? (fun | .colour m => some m | _ => none) (innermost levels .colour)).getD .auto
  noConfig := !(innermost levels .noConfig).isEmpty

/-- The settings file that options name. -/
def configOf : List Given → Option Path :=
  pick? fun | .config p => some p | _ => none

/-- The output file that options name. -/
def outputOf : List Given → Option Path :=
  pick? fun | .output p => some p | _ => none

/-- The options of the command that checks migrations. -/
def checkOptions (p : Progress) : CheckOptions where
  paths := p.paths
  config := configOf p.given
  method := pick? (fun | .method m => some m | _ => none) p.given
  suffix := pick? (fun | .suffix s => some s | _ => none) p.given
  exclude := p.given.filterMap fun | .exclude x => some x | _ => none
  format := (pick? (fun | .format f => some f | _ => none) p.given).getD .text
  output := outputOf p.given
  jobs := pick? (fun | .jobs n => some n | _ => none) p.given
  noExample := p.given.contains .noExample

/-- The command that a level stands for. -/
def commandOf? (p : Progress) : Level → Option Command
  | .check => some (.check (checkOptions p))
  | .init => some (.init ((outputOf p.given).getD defaultSettingsFile) (p.given.contains .force))
  | .configValidate => some (.validateSettings ((configOf p.given).getD defaultSettingsFile))
  | .configShow =>
    let format := pick? (fun | .showFormat f => some f | _ => none) p.given
    some (.showSettings (configOf p.given) (format.getD .text))
  | .top | .config | .help => none

/-- The command line that levels add up to. -/
def ofLevels? (levels : Levels) : Option CommandLine := do
  let (level, p) ← levels.getLast?
  let command ← commandOf? p level
  return ⟨commonOptions levels, command⟩

/-- Reads the arguments of a command line. -/
def parse (arguments : List String) : Except UsageError CommandLine := do
  let levels ← readLevels .top {} arguments
  orError .missingCommand (ofLevels? levels)

end MigrationLint.CommandLine
