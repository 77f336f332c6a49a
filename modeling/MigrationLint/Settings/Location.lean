import MigrationLint.Settings.Decode
import MigrationLint.Settings.Display

/-!
# Where settings come from

Settings are looked for in the working directory and then in the directory for the user's settings.
The first file that is there decides, even if it cannot be used. A file that is asked for by its
path must be there.
-/

namespace MigrationLint

/-- Reads a file as text. The result is `none` if nothing has the path. -/
abbrev TextSource :=
  Path → Except FileFault (Option String)

/-- The directories in which settings are looked for; either may be unknown. -/
structure SettingsDirectories where
  /-- The working directory. -/
  working : Option Path
  /-- The directory for the user's settings. -/
  user : Option Path
  deriving DecidableEq, Repr

namespace LoadedSettings

/-- The name of a settings file in a working directory. -/
def localName : String :=
  ".rollback-guard.toml"

/-- The name of the file with the user's settings. -/
def userName : String :=
  "config.toml"

/-- The settings in a file, if it is there. -/
def read? (source : TextSource) (path : Path) : Except Failure (Option LoadedSettings) :=
  match source path with
  | .error fault => .error (.unreadable path fault)
  | .ok none => .ok none
  | .ok (some text) => (Settings.parse text).map fun s => some ⟨s, some path⟩

/-- The settings in the first file that is there, or the defaults. -/
def first (source : TextSource) : List Path → Except Failure LoadedSettings
  | [] => .ok {}
  | path :: paths =>
    match read? source path with
    | .error failure => .error failure
    | .ok none => first source paths
    | .ok (some l) => .ok l

/-- The places where settings are looked for, the most specific one first. -/
def places (dirs : SettingsDirectories) : List Path :=
  (dirs.working.map (·.join localName)).toList ++ (dirs.user.map (·.join userName)).toList

/-- The settings in the first of the usual places, or the defaults. -/
def search (source : TextSource) (dirs : SettingsDirectories) :
    Except Failure LoadedSettings :=
  first source (places dirs)

/-- The settings in a file that must be there. -/
def ofFile (source : TextSource) (path : Path) : Except Failure LoadedSettings :=
  match read? source path with
  | .error failure => .error failure
  | .ok none => .error (.settings (.fileNotFound path))
  | .ok (some l) => .ok l

/-- The settings in effect: the defaults if no file is to be read, else those of a given file, else
those of the first file in the usual places. -/
def load (source : TextSource) (dirs : SettingsDirectories) (file : Option Path)
    (noConfig : Bool) : Except Failure LoadedSettings :=
  if noConfig then .ok {}
  else
    match file with
    | some path => ofFile source path
    | none => search source dirs

end LoadedSettings

end MigrationLint
