/-!
# The settings template

The document that a new settings file starts from. It writes out every default.
-/

namespace MigrationLint.Settings

/-- A commented settings document that holds the defaults. -/
def template : String :=
  "# rollback-guard configuration file\n" ++
  "\n" ++
  "[check]\n" ++
  "# Method every migration must implement as a single throw (default: \"down\")\n" ++
  "method = \"down\"\n" ++
  "\n" ++
  "# Only directory entries ending with this suffix are checked (default: \".php\")\n" ++
  "suffix = \".php\"\n" ++
  "\n" ++
  "# Glob patterns for directory entries to skip\n" ++
  "# exclude = [\"**/*Seeder.php\"]\n" ++
  "exclude = []\n" ++
  "\n" ++
  "# Check files on all cores (default: true)\n" ++
  "parallel = true\n" ++
  "\n" ++
  "# Print a compliant rollback method after failures (default: true)\n" ++
  "show_example = true\n"

end MigrationLint.Settings
