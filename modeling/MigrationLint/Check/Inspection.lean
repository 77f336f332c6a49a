import MigrationLint.Check.Rule
import MigrationLint.FileTree.Access
import MigrationLint.Tree.ParseError

/-!
# Inspecting candidates

What a run finds when it looks at one candidate. Every problem with a file becomes a reason why it
fails and does not affect other files.
-/

namespace MigrationLint

/-- What is found at a candidate. -/
inductive Finding
  /-- The candidate is not a regular file. -/
  | notAFile
  /-- The file cannot be read. -/
  | unreadable (fault : FileFault)
  /-- The text has no syntax tree. -/
  | rejected (error : ParseError)
  /-- The text has a syntax tree. -/
  | parsed (tree : Tree)

namespace Finding

/-- What is found at the path of a candidate. Bytes that are not text are replaced. -/
def ofPath (t : FileTree) (parser : SourceParser) (p : Path) : Finding :=
  if t.isRegularFile p then
    match t.read p with
    | .error fault => unreadable fault
    | .ok bytes =>
      match parser p (String.ofList (Utf8.decodeLossy bytes)) with
      | .error e => rejected e
      | .ok tree => parsed tree
  else notAFile

/-- The verdict that a finding leads to. -/
def verdict (method : String) : Finding → Verdict
  | notAFile => .fail .notAFile
  | unreadable fault => .fail (.unreadable fault.message)
  | rejected e => .fail (.unparsable e.text)
  | parsed tree => tree.verdict method

end Finding

/-- The outcome for a candidate. -/
def inspect (t : FileTree) (parser : SourceParser) (method : String) (p : Path) : Outcome :=
  ⟨p, (Finding.ofPath t parser p).verdict method⟩

end MigrationLint
