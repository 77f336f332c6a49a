/-!
# Paths

A path is a text that names a place in a file tree. Its components are what the text says once
repeated and trailing separators and `.` segments are ignored; a leading `.` and every `..` count.
`normal` writes the components back with one separator between them.
-/

namespace MigrationLint

/-- A path as it is written. -/
structure Path where
  /-- The written form. -/
  text : String
  deriving DecidableEq, Repr, Inhabited

namespace Path

/-- The pieces of a text between separators. -/
def segments (cs : List Char) : List (List Char) :=
  cs.splitOn '/'

/-- One step of a path. -/
inductive Component
  /-- The root of the tree. -/
  | root
  /-- A leading `.`. -/
  | current
  /-- The parent directory, `..`. -/
  | parent
  /-- An entry of a directory. -/
  | name (text : String)
  deriving DecidableEq, Repr

/-- The component that a segment stands for, if it counts. -/
def Component.ofSegment : List Char → List Component
  | [] => []
  | ['.'] => []
  | ['.', '.'] => [.parent]
  | s => [.name (String.ofList s)]

/-- How a component is written. -/
def Component.text : Component → String
  | root => "/"
  | current => "."
  | parent => ".."
  | name s => s

/-- What the first segment contributes: a leading separator is the root, a leading `.` counts. -/
def leading (first : List Char) (rest : List (List Char)) : List Component :=
  if first.isEmpty then if rest.isEmpty then [] else [.root]
  else if first = ['.'] then [.current]
  else Component.ofSegment first

/-- The components of a path, in order. -/
def components (p : Path) : List Component :=
  match segments p.text.toList with
  | [] => []
  | first :: rest => leading first rest ++ rest.flatMap Component.ofSegment

/-- The path starts at the root. -/
def isAbsolute (p : Path) : Bool :=
  p.text.toList.head? == some '/'

/-- The path that `name` has inside `dir`; an absolute name stands for itself. -/
def join (dir : Path) (name : String) : Path :=
  if (Path.mk name).isAbsolute then ⟨name⟩
  else if dir.text.toList.isEmpty || dir.text.toList.getLast? == some '/' then ⟨dir.text ++ name⟩
  else ⟨dir.text ++ "/" ++ name⟩

/-- The path with exactly the given components. -/
def ofComponents (cs : List Component) : Path :=
  cs.foldl (fun p c => p.join c.text) ⟨""⟩

/-- The path with the same components and nothing else. -/
def normal (p : Path) : Path :=
  ofComponents p.components

/-- The name of the entry that a path ends in, unless it ends in the root, `.` or `..`. -/
def fileName? (p : Path) : Option String :=
  match p.components.getLast? with
  | some (.name s) => some s
  | _ => none

end Path

end MigrationLint
