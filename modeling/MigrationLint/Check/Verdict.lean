import MigrationLint.Path

/-!
# Verdicts

The verdict on a migration is that it passes or the reason why it fails.
-/

namespace MigrationLint

/-- Why a migration fails. -/
inductive Reason
  /-- The candidate is not a regular file. -/
  | notAFile
  /-- The file could not be read. -/
  | unreadable (message : String)
  /-- The file has no syntax tree. -/
  | unparsable (message : String)
  /-- No method has the name of the rollback method. -/
  | missingMethod
  /-- The rollback method has no statements. -/
  | emptyBody
  /-- The rollback method does something else than a single throw. -/
  | notSoleThrow
  deriving DecidableEq, Repr

namespace Reason

/-- The stable identifier of a reason in machine-readable reports. -/
def code : Reason → String
  | notAFile => "not_a_file"
  | unreadable _ => "read_error"
  | unparsable _ => "parse_error"
  | missingMethod => "missing_rollback_method"
  | emptyBody => "empty_rollback_body"
  | notSoleThrow => "rollback_body_not_sole_throw"

/-- The reason in a few words. -/
def text : Reason → String
  | notAFile => "not a file"
  | unreadable message => "read error: " ++ message
  | unparsable message => "parse error: " ++ message
  | missingMethod => "missing rollback method"
  | emptyBody => "empty rollback body"
  | notSoleThrow => "rollback body is not a sole throw"

/-- The reason as a sentence about a migration and its rollback method. -/
def message (path : Path) (method : String) : Reason → String
  | notAFile => "Migration `" ++ path.text ++ "` is not a file"
  | unreadable message => "Migration `" ++ path.text ++ "` could not be read: " ++ message
  | unparsable message => "Migration `" ++ path.text ++ "` parse error: " ++ message
  | missingMethod => "Migration `" ++ path.text ++ "` missing `" ++ method ++ "` method"
  | emptyBody =>
    "Migration `" ++ path.text ++ "` does not have any statements, must throw Exception"
  | notSoleThrow =>
    "Migration `" ++ path.text ++ "` should throw an Exception in `" ++ method ++
      "` method, nothing more"

end Reason

/-- What a check says about a migration. -/
inductive Verdict
  | pass
  | fail (reason : Reason)
  deriving DecidableEq, Repr

namespace Verdict

/-- The reason of a failure. -/
def reason? : Verdict → Option Reason
  | pass => none
  | fail reason => some reason

/-- The migration passes. -/
def isPass (v : Verdict) : Bool :=
  v.reason?.isNone

/-- The migration fails. -/
def isFail (v : Verdict) : Bool :=
  v.reason?.isSome

end Verdict

/-- The verdict on one file. -/
structure Outcome where
  /-- The file, as the run names it. -/
  path : Path
  /-- What the check says about it. -/
  verdict : Verdict
  deriving DecidableEq, Repr

end MigrationLint
