import MigrationLint.Text.Literal

/-!
# Presentation

Whether output is coloured and which form it takes.
-/

namespace MigrationLint

/-- When to colour output. -/
inductive ColourMode
  /-- On terminals, unless the environment asks for no colour. -/
  | auto
  /-- Always. -/
  | always
  /-- Never. -/
  | never
  deriving DecidableEq, Repr

namespace ColourMode

/-- Output to a stream is coloured. The environment asks for no colour by setting a variable,
whatever its value. -/
def colours (mode : ColourMode) (isTerminal : Bool) (noColour : Option String) : Bool :=
  match mode with
  | always => true
  | never => false
  | auto => noColour.isNone && isTerminal

/-- The name of a mode. -/
def name : ColourMode → String
  | auto => "auto"
  | always => "always"
  | never => "never"

/-- The mode with a given name. -/
def ofName? (s : String) : Option ColourMode :=
  [auto, always, never].find? fun m => m.name == s

end ColourMode

/-- The form of output. -/
inductive OutputFormat
  /-- Text for people. -/
  | text
  /-- JSON for machines. -/
  | json
  deriving DecidableEq, Repr

namespace OutputFormat

/-- The name of a form. -/
def name : OutputFormat → String
  | text => "text"
  | json => "json"

/-- The form with a given name. -/
def ofName? (s : String) : Option OutputFormat :=
  [text, json].find? fun f => f.name == s

/-- The form with a given name, in capital or small letters. -/
def ofNameIgnoringCase? (s : String) : Option OutputFormat :=
  ofName? (Text.lowered s)

/-- What is wrong with a text that is not the name of a form. -/
def unknownMessage (s : String) : String :=
  "Unknown output format: " ++ s

end OutputFormat

end MigrationLint
