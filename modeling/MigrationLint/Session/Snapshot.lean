import MigrationLint.Json.Reader
import MigrationLint.Php.Parser
import MigrationLint.Session.World

/-!
# Snapshots

A snapshot describes the world of a command as a JSON object: the working directory, the variables
of the environment, and the files. PHP is parsed elsewhere: a file may come with its concrete syntax
tree, as a list of rows with the depth, kind, flags, role, extent, row and column of each node.
-/

namespace MigrationLint.Snapshot

/-- The string that a value holds. -/
def string? : Json → Option String
  | .string s => some s
  | _ => none

/-- The number that a value holds. -/
def natural? : Json → Option Nat
  | .number n => n.toNat?
  | _ => none

/-- The items of a list. -/
def items : Json → List Json
  | .list js => js
  | _ => []

/-- The string that a member of an object holds. -/
def stringMember? (name : String) (j : Json) : Option String :=
  (j.member? name).bind string?

/-- The items of the list that a member of an object holds. -/
def itemsMember (name : String) (j : Json) : List Json :=
  ((j.member? name).map items).getD []

/-- The row of a concrete node. -/
def row? : Json → Option (Nat × Php.Label)
  | .list [depth, kind, flags, field, first, last, row, column] => do
    let flags ← string? flags
    let has := fun (c : Char) => flags.toList.contains c
    return (← natural? depth,
      { kind := ← string? kind
        named := has 'n'
        isError := has 'e'
        isMissing := has 'm'
        hasError := has 'h'
        field := string? field
        first := ← natural? first
        last := ← natural? last
        row := ← natural? row
        column := ← natural? column })
  | _ => none

/-- The concrete syntax tree of a file. -/
def cst? (file : Json) : Option Php.Cst := do
  let rows ← file.member? "cst"
  Php.Cst.ofOutline? (← (items rows).mapM row?)

/-- The content of a file: its text, or its bytes one by one. -/
def content (file : Json) : Utf8.Bytes :=
  match stringMember? "text" file with
  | some text => Utf8.encode text.toList
  | none => (itemsMember "bytes" file).filterMap fun b => (natural? b).map UInt8.ofNat

/-- The names of a path from the root. -/
def location (path : String) : Location :=
  (Path.mk path).components.filterMap fun
    | .name s => some s
    | _ => none

/-- What is at the location of a file. -/
def entry (file : Json) : FileEntry :=
  match stringMember? "link" file, file.member? "directory", file.member? "device" with
  | some target, _, _ => .link target
  | none, some _, _ => .directory
  | none, none, some _ => .device
  | none, none, none => .file (content file)

/-- The tree with one more file. A directory may come with what keeps it from being listed. -/
def addFile (t : FileTree) (file : Json) : FileTree :=
  match stringMember? "path" file with
  | some path =>
    let t := t.place ⟨path⟩ (entry file)
    (stringMember? "closed" file).elim t fun reason => t.close ⟨path⟩ (.other reason)
  | none => t

/-- The grammar that knows the concrete syntax trees that come with files. -/
def grammar (files : List Json) : Php.Grammar :=
  let known := files.filterMap fun file =>
    (cst? file).map fun c => (String.ofList (Utf8.decodeLossy (content file)), c)
  Php.Grammar.withPlainText fun source => (known.find? fun k => k.1 == source).map (·.2)

/-- The variables of the environment that matter. -/
def environment (j : Json) : Environment where
  home := stringMember? "HOME" j
  configHome := stringMember? "XDG_CONFIG_HOME" j
  noColour := stringMember? "NO_COLOR" j
  logFilter := stringMember? "ROLLBACK_GUARD_LOG" j

/-- The world that a snapshot describes. -/
def world (j : Json) : World :=
  let files := itemsMember "files" j
  let working := location ((stringMember? "working" j).getD "/")
  { tree := files.foldl addFile (FileTree.put { working := working } working .directory)
    environment := environment ((j.member? "environment").getD .null)
    parser := Php.parser (grammar files) }

/-- The files that are new or have another content than before, with their paths. -/
def changes (before after : FileTree) : List (String × Utf8.Bytes) :=
  (after.entries.filter fun e => !before.entries.contains e).filterMap fun (l, e) =>
    match e with
    | .file bytes => some ("/" ++ String.intercalate "/" l, bytes)
    | _ => none

end MigrationLint.Snapshot
