import MigrationLint.CommandLine.Option

/-!
# Writing command lines

Every command line can be written as a list of arguments: first the options that every command
takes, then the command, then its options with their values attached, then the paths after `--`.
-/

namespace MigrationLint.CommandLine

/-- An option with a value attached. -/
def attached (o : OptionName) (value : String) : String :=
  "--" ++ o.long ++ "=" ++ value

/-- An option without a value, if it holds. -/
def switch (o : OptionName) (holds : Bool) : List String :=
  if holds then ["--" ++ o.long] else []

/-- An option with a value attached, if there is a value. -/
def optional (o : OptionName) (value : Option String) : List String :=
  (value.map (attached o)).toList

/-- The arguments for the options that every command takes. -/
def commonArguments (c : CommonOptions) : List String :=
  List.replicate c.verbosity ("--" ++ OptionName.verbose.long) ++
    switch .quiet c.quiet ++
    [attached .colour c.colour.name] ++
    switch .noConfig c.noConfig

/-- The arguments for the options and paths of a check. -/
def checkArguments (o : CheckOptions) : List String :=
  optional .config (o.config.map Path.text) ++
    optional .method o.method ++
    optional .suffix o.suffix ++
    o.exclude.map (attached .exclude) ++
    [attached .format o.format.name] ++
    optional .output (o.output.map Path.text) ++
    optional .jobs (o.jobs.map toString) ++
    switch .noExample o.noExample ++
    ["--"] ++ o.paths.map Path.text

/-- The arguments for a command. -/
def commandArguments : Command → List String
  | .check o => "check" :: checkArguments o
  | .init output force => ["init", attached .output output.text] ++ switch .force force
  | .validateSettings file => ["config", "validate", attached .config file.text]
  | .showSettings file format =>
    ["config", "show"] ++ optional .config (file.map Path.text) ++
      [attached .showFormat format.name]

/-- The arguments of a command line. -/
def arguments (c : CommandLine) : List String :=
  commonArguments c.common ++ commandArguments c.command

end MigrationLint.CommandLine
