import MigrationLint.FileTree.Walk

/-!
# Using files

What commands do with paths: look what is there, list a directory, read a file and write one. A file
is written as a whole; if that fails the tree stays as it is. `place`, `close` and `clear` set up a
tree for commands to work on.
-/

namespace MigrationLint.FileTree

open Utf8 (Bytes)

/-- What a path leads to. -/
def lookUp (t : FileTree) (p : Path) : Except FileFault (Location × FileEntry) := do
  let d ← t.destination .use p
  match d.entry with
  | none => .error .notFound
  | some e => if d.separator then .error .notADirectory else .ok (d.location, e)

/-- The path leads to something. -/
def exists? (t : FileTree) (p : Path) : Bool :=
  (t.lookUp p).toOption.isSome

/-- The location of the directory that a path leads to. -/
def directory? (t : FileTree) (p : Path) : Option Location :=
  match t.lookUp p with
  | .ok (l, .directory) => some l
  | _ => none

/-- The path leads to a regular file. -/
def isRegularFile (t : FileTree) (p : Path) : Bool :=
  match t.lookUp p with
  | .ok (_, .file _) | .ok (_, .broken _) => true
  | _ => false

/-- The content that an entry has for readers. -/
def contentOf : FileEntry → Except FileFault Bytes
  | .file content => .ok content
  | .broken fault => .error fault
  | .device => .ok []
  | .directory => .error .isADirectory
  | .link _ => .error .tooManyLinks

/-- The content of the file that a path leads to. -/
def read (t : FileTree) (p : Path) : Except FileFault Bytes :=
  (t.lookUp p).bind fun (_, e) => contentOf e

/-- The content of a file as text. -/
def readText (t : FileTree) (p : Path) : Except FileFault String :=
  (t.read p).bind fun bytes =>
    match Utf8.decode? bytes with
    | some cs => .ok (String.ofList cs)
    | none => .error .notText

/-- The content of a file as text, or nothing if the path leads nowhere. -/
def readTextIfPresent (t : FileTree) (p : Path) : Except FileFault (Option String) :=
  match t.readText p with
  | .ok text => .ok (some text)
  | .error .notFound => .ok none
  | .error fault => .error fault

/-- The tree after a file has been written. The file is made if it is not there. -/
def write (t : FileTree) (p : Path) (content : Bytes) : Except FileFault FileTree := do
  let d ← t.destination .write p
  match d.entry with
  | none | some (.file _) => .ok (t.set d.location (.file content))
  | some .device => .ok t
  | some e => (contentOf e).bind fun _ => .ok t

/-- The tree after a text has been written to a file. -/
def writeText (t : FileTree) (p : Path) (text : String) : Except FileFault FileTree :=
  t.write p (Utf8.encode text.toList)

/-! ## Setting up a tree -/

/-- The tree with the directories that segments name one below the other, from a directory. -/
def makeDirectories (t : FileTree) (here : Location) (segments : List String) : FileTree :=
  (List.range (segments.length + 1)).foldl (fun t n =>
    match t.walk .use maxLinks here (segments.take n) with
    | .ok ⟨l, none, _⟩ => t.set l .directory
    | _ => t) t

/-- The location of what a path names. A link as its last segment is not followed. -/
def ownLocation? (t : FileTree) (p : Path) : Option Location := do
  let segments := segmentsOf p.text
  let d ← (t.walk .use maxLinks (start p.text t.working) segments.dropLast).toOption
  return d.location ++ [← segments.getLast?]

/-- The tree with an entry at a path, and with the directories above it. Links that are there already
are followed, but a link is placed where the path names it. -/
def place (t : FileTree) (p : Path) (e : FileEntry) : FileTree :=
  let here := start p.text t.working
  let segments := segmentsOf p.text
  let t := t.makeDirectories here segments.dropLast
  match e with
  | .directory => t.makeDirectories here segments
  | .file content => (t.write p content).toOption.getD t
  | e => (t.ownLocation? p).elim t fun l => t.set l e

/-- The tree in which the directory that a path leads to cannot be listed. -/
def close (t : FileTree) (p : Path) (fault : FileFault) : FileTree :=
  (t.directory? p).elim t fun l => { t with closed := t.closed ++ [(l, fault)] }

/-- The tree without what a path names and all that is below it. -/
def clear (t : FileTree) (p : Path) : FileTree :=
  (t.ownLocation? p).elim t t.remove

end MigrationLint.FileTree
