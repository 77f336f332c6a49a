/-!
# Faults of files

Why a file operation fails, with the number and wording that the operating system gives to it.
-/

namespace MigrationLint

/-- Why a file operation fails. -/
inductive FileFault
  /-- Nothing has the path. -/
  | notFound
  /-- The medium cannot be read. -/
  | inputOutput
  /-- It is not allowed. -/
  | permissionDenied
  /-- A step of the path leads through something that is not a directory. -/
  | notADirectory
  /-- The path leads to a directory. -/
  | isADirectory
  /-- A name of the path is too long. -/
  | nameTooLong
  /-- The path leads through too many links. -/
  | tooManyLinks
  /-- The path has a NUL character. -/
  | nulInPath
  /-- The content is not well-formed UTF-8. -/
  | notText
  /-- A directory cannot be opened for its names, for the given reason. -/
  | unlisted (directory : String) (reason : FileFault)
  /-- Anything else, in words. -/
  | other (text : String)
  deriving DecidableEq, Repr

namespace FileFault

/-- A fault as the operating system words and numbers it. -/
def numbered (text : String) (number : Nat) : String :=
  text ++ " (os error " ++ toString number ++ ")"

/-- The wording of a fault. -/
def message : FileFault → String
  | notFound => numbered "No such file or directory" 2
  | inputOutput => numbered "Input/output error" 5
  | permissionDenied => numbered "Permission denied" 13
  | notADirectory => numbered "Not a directory" 20
  | isADirectory => numbered "Is a directory" 21
  | nameTooLong => numbered "File name too long" 36
  | tooManyLinks => numbered "Too many levels of symbolic links" 40
  | nulInPath => "file name contained an unexpected NUL byte"
  | notText => "stream did not contain valid UTF-8"
  | unlisted directory reason =>
    "IO error for operation on " ++ directory ++ ": " ++ reason.message
  | other text => text

end FileFault

end MigrationLint
