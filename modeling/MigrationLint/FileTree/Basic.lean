import MigrationLint.FileTree.Fault
import MigrationLint.Text.Utf8

/-!
# File trees

A file tree lists what is at which location. The root is always a directory. `put` places an entry
and makes the directories above it; `remove` takes away a location with all that is below it. A
directory may be closed: what is in it is found by its path, but nobody gets to see its names.
-/

namespace MigrationLint

open Utf8 (Bytes)

/-- The names that lead from the root of a file tree to one of its entries. -/
abbrev Location :=
  List String

/-- What is at a location. -/
inductive FileEntry
  /-- A regular file. -/
  | file (content : Bytes)
  /-- A regular file that cannot be read. -/
  | broken (fault : FileFault)
  /-- A directory. -/
  | directory
  /-- A device, which is empty and swallows what is written to it. -/
  | device
  /-- A symbolic link. -/
  | link (target : String)
  deriving DecidableEq, Repr

/-- A file tree as a command sees it. -/
structure FileTree where
  /-- The entries, each at a location of its own. -/
  entries : List (Location × FileEntry) := []
  /-- The directory that relative paths start from. -/
  working : Location := []
  /-- The directories that cannot be listed, and why. -/
  closed : List (Location × FileFault) := []
  deriving DecidableEq, Repr

namespace FileTree

/-- What is at a location. -/
def entry? (t : FileTree) (l : Location) : Option FileEntry :=
  if l.isEmpty then some .directory else (t.entries.find? fun e => e.1 == l).map (·.2)

/-- The tree with an entry in place of the one that may be at its location. -/
def set (t : FileTree) (l : Location) (e : FileEntry) : FileTree :=
  { t with entries := t.entries.filter (fun x => x.1 != l) ++ [(l, e)] }

/-- The tree with a directory at a location, unless something is there already. -/
def ensureDirectory (t : FileTree) (l : Location) : FileTree :=
  if (t.entry? l).isSome then t else t.set l .directory

/-- The tree with an entry and with the directories above it. -/
def put (t : FileTree) (l : Location) (e : FileEntry) : FileTree :=
  (((List.range l.length).map l.take).foldl ensureDirectory t).set l e

/-- The tree without a location and all that is below it. -/
def remove (t : FileTree) (l : Location) : FileTree :=
  { t with
    entries := t.entries.filter fun x => !l.isPrefixOf x.1
    closed := t.closed.filter fun x => !l.isPrefixOf x.1 }

/-- The names in a directory, each one once, in the order of their characters. -/
def names (t : FileTree) (l : Location) : List String :=
  let inside := t.entries.filterMap fun x =>
    match x.1.getLast? with
    | some name => if x.1.dropLast = l then some name else none
    | none => none
  inside.eraseDups.mergeSort fun a b => !decide (b < a)

/-- What keeps a directory from being listed. -/
def fault? (t : FileTree) (l : Location) : Option FileFault :=
  t.closed.lookup l

end FileTree

end MigrationLint
