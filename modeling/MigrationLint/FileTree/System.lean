import MigrationLint.FileTree.Access

/-!
# File systems

A file tree says what is where. Which names a directory has is for the system to answer, and it may
refuse to. A file system is a file tree together with these answers. A file tree is taken for the
system that answers with the names of its entries, and refuses to for its closed directories.
-/

namespace MigrationLint

/-- A file tree whose directories the system lists. -/
structure FileSystem extends FileTree where
  /-- The names in the directory at a location, in order, or why they cannot be had. -/
  list : Location → Except FileFault (List String)

namespace FileTree

/-- The file system that lists the directories of a tree with the names of its entries. -/
def listed (t : FileTree) : FileSystem :=
  { t with
    list := fun l =>
      match t.fault? l with
      | some fault => .error fault
      | none => .ok (t.names l) }

/-- Where a file system is asked for, a tree is the one that lists it. -/
instance : Coe FileTree FileSystem :=
  ⟨listed⟩

@[simp]
theorem toFileTree_listed (t : FileTree) : t.listed.toFileTree = t :=
  rfl

end FileTree

end MigrationLint
