import MigrationLint.Json.Printer
import MigrationLint.Path
import MigrationLint.Settings.Basic
import MigrationLint.Text.Literal
import MigrationLint.Text.Quoted

/-!
# Showing settings

Settings are shown together with the file that they come from, or as a JSON object with the layout
of a settings document.
-/

namespace MigrationLint

/-- Settings and the file that they were read from; built-in defaults have none. -/
structure LoadedSettings where
  /-- The settings. -/
  settings : Settings := {}
  /-- The file that holds them. -/
  source : Option Path := none
  deriving DecidableEq, Repr

namespace Settings

/-- A line that shows one setting. -/
def line (field : Field) (value : String) : String :=
  "  " ++ field.name ++ " = " ++ value ++ "\n"

/-- The settings, a line each. -/
def lines (s : Settings) : String :=
  line .method (Text.quoted s.method) ++
    line .suffix (Text.quoted s.suffix) ++
    line .exclude (Text.quotedList s.exclude) ++
    line .parallel (Text.truth s.parallel) ++
    line .showExample (Text.truth s.showExample)

/-- The settings as a JSON object with the layout of a settings document. -/
def document (s : Settings) : Json :=
  .object [(sectionName, .object
    [(Field.method.name, .string s.method),
      (Field.suffix.name, .string s.suffix),
      (Field.exclude.name, .strings s.exclude),
      (Field.parallel.name, .boolean s.parallel),
      (Field.showExample.name, .boolean s.showExample)])]

/-- The JSON object as text. -/
def documentText (s : Settings) : String :=
  s.document.text ++ "\n"

end Settings

/-- The settings and where they come from. -/
def LoadedSettings.text (l : LoadedSettings) : String :=
  let source := (l.source.map Path.text).getD "built-in defaults"
  "=== Effective Configuration ===\n" ++
    "Source: " ++ source ++ "\n" ++
    "\n[check]\n" ++
    l.settings.lines

end MigrationLint
