import MigrationLint.FileTree.Basic
import MigrationLint.Path

/-!
# Walking paths

A path is walked from its first segment to its last, through directories and symbolic links. Empty
segments and `.` stay in place and `..` goes up. What a path leads to may not be there, as long as
the directory that it would be in is. A path that ends in a separator never leads to a file that is
to be written, not even through a link.
-/

namespace MigrationLint.FileTree

/-- What a path is walked for. -/
inductive Purpose
  /-- To use what is there. -/
  | use
  /-- To write a file, which is made if it is not there. -/
  | write
  deriving DecidableEq, Repr

/-- Where a path leads. -/
structure Destination where
  /-- The location. -/
  location : Location
  /-- What is there; never a link. -/
  entry : Option FileEntry
  /-- The path ends in a separator, and what it leads to is not a directory. -/
  separator : Bool
  deriving DecidableEq, Repr

/-- The greatest length of a name, in bytes. -/
def maxName : Nat := 255

/-- The length from which on a path is too long, in bytes. -/
def maxPath : Nat := 4096

/-- The most links that a path may lead through. -/
def maxLinks : Nat := 40

/-- The segments of a path. -/
def segmentsOf (path : String) : List String :=
  (Path.segments path.toList).map String.ofList

/-- The location where the walk of a path starts. -/
def start (path : String) (here : Location) : Location :=
  if (Path.mk path).isAbsolute then [] else here

/-- The segments are those after a separator at the end of a path. -/
def isTrailing (segments : List String) : Bool :=
  !segments.isEmpty && segments.all (· = "")

/-- Walks segments from a directory. At a link it goes on with `follow`, from the directory that the
target of the link starts from. -/
def walkSegments (t : FileTree) (purpose : Purpose)
    (follow : Location → List String → Except FileFault Destination) :
    List String → Location → Except FileFault Destination
  | [], here => .ok ⟨here, some .directory, false⟩
  | s :: rest, here =>
    if s = "" ∨ s = "." then walkSegments t purpose follow rest here
    else if s = ".." then walkSegments t purpose follow rest here.dropLast
    else if purpose = .write ∧ isTrailing rest then .error .isADirectory
    else if maxName < s.utf8ByteSize then .error .nameTooLong
    else
      let there := here ++ [s]
      match t.entry? there with
      | some .directory => walkSegments t purpose follow rest there
      | some (.link target) =>
        if target = "" then .error .notFound
        else follow (start target here) (segmentsOf target ++ rest)
      | entry =>
        if rest.isEmpty ∨ isTrailing rest then .ok ⟨there, entry, !rest.isEmpty⟩
        else .error (if entry.isSome then .notADirectory else .notFound)

/-- Walks segments from a directory, through a limited number of links. -/
def walk (t : FileTree) (purpose : Purpose) :
    Nat → Location → List String → Except FileFault Destination
  | 0, here, segments => walkSegments t purpose (fun _ _ => .error .tooManyLinks) segments here
  | links + 1, here, segments => walkSegments t purpose (walk t purpose links) segments here

/-- Where a path leads. -/
def destination (t : FileTree) (purpose : Purpose) (p : Path) : Except FileFault Destination :=
  if p.text.toList.contains '\x00' then .error .nulInPath
  else if p.text = "" then .error .notFound
  else if maxPath ≤ p.text.utf8ByteSize then .error .nameTooLong
  else walk t purpose maxLinks (start p.text t.working) (segmentsOf p.text)

end MigrationLint.FileTree
