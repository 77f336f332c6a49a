import MigrationLint.FileTree.System
import MigrationLint.Settings.Validity

/-!
# Candidates

The files that a run checks. An input that is not a directory stands for itself. A directory stands
for the entries in it that the filter lets through, in the order of their names. Entries of
directories below it do not count. What the inputs stand for is collected in their order, and a path
that has been found before keeps its place. A directory that the system refuses to list stands for
nothing: the inputs cannot be resolved then.
-/

namespace MigrationLint

/-- A way to tell which entries of a directory are migrations. -/
class PathFilter (F : Type) where
  /-- The filter lets the path of an entry through. -/
  accepts : F → Path → Bool

/-- Tells migrations by the end of their names, and by patterns for those that are left out. -/
structure EntryFilter where
  /-- The end of their names. -/
  suffix : String
  /-- Patterns for the paths that are left out. -/
  exclude : List Glob

namespace EntryFilter

/-- The filter with a given suffix and the given texts as patterns. All of them must be well formed,
and they must compile. -/
def ofTexts (suffix : String) (exclude : List String) : Except Failure EntryFilter := do
  let globs ← Glob.parseAll exclude
  match Glob.compileFault? globs with
  | some fault => .error (.uncompiledPatterns fault)
  | none => .ok ⟨suffix, globs⟩

/-- The path ends in a name with the right end. -/
def hasSuffix (f : EntryFilter) (p : Path) : Bool :=
  p.fileName?.any fun name => f.suffix.toList.isSuffixOf name.toList

/-- Some pattern matches the path. -/
def excludes (f : EntryFilter) (p : Path) : Bool :=
  f.exclude.any fun g => g.accepts p.text

/-- The filter lets the path through. -/
def accepts (f : EntryFilter) (p : Path) : Bool :=
  f.hasSuffix p && !f.excludes p

/-- Entry filters are filters. -/
instance : PathFilter EntryFilter :=
  ⟨accepts⟩

end EntryFilter

/-- Paths in the order in which they were found, with one more at the end unless it is there
already. -/
def addPath (found : List Path) (p : Path) : List Path :=
  if found.contains p then found else found ++ [p]

namespace FileSystem

variable {F : Type} [PathFilter F]

/-- The candidates that an existing input path stands for. -/
def scan (s : FileSystem) (f : F) (p : Path) : Except Failure (List Path) :=
  if s.exists? p then
    match s.directory? p with
    | some l =>
      match s.list l with
      | .ok names => .ok ((names.map p.normal.join).filter (PathFilter.accepts f))
      | .error fault => .error (.file (.unlisted p.normal.text fault))
    | none => .ok [p]
  else .error (.pathNotFound p)

/-- The entries that an input path leaves out. -/
def leftOut (s : FileSystem) (f : F) (p : Path) : List Path :=
  match (s.directory? p).map s.list with
  | some (.ok names) => (names.map p.normal.join).filter fun q => !PathFilter.accepts f q
  | _ => []

/-- The candidates found so far, with those that further input paths stand for. -/
def collect (s : FileSystem) (f : F) (found : List Path) : List Path → Except Failure (List Path)
  | [] => .ok found
  | p :: inputs =>
    match s.scan f p with
    | .error failure => .error failure
    | .ok files => s.collect f (files.foldl addPath found) inputs

/-- The candidates that input paths stand for, each one once. All of them must exist, which is looked
at before any of them is listed. -/
def resolve (s : FileSystem) (f : F) (inputs : List Path) : Except Failure (List Path) :=
  match inputs.find? fun p => !s.exists? p with
  | some p => .error (.pathNotFound p)
  | none => s.collect f [] inputs

end FileSystem

namespace FileTree

variable {F : Type} [PathFilter F]

/-- The candidates that an existing input path stands for in a tree. -/
abbrev scan (t : FileTree) (f : F) (p : Path) : Except Failure (List Path) :=
  t.listed.scan f p

/-- The candidates that input paths stand for in a tree. -/
abbrev resolve (t : FileTree) (f : F) (inputs : List Path) : Except Failure (List Path) :=
  t.listed.resolve f inputs

end FileTree

end MigrationLint
