import MigrationLint.Tree.Basic

/-!
# Stacks in arrays

The stack of a preorder traversal, kept in an array whose last node is on top. Visiting the node on
top takes it from the end of the array and puts its children there. They are put there in reverse,
so that the first of them comes to lie on top.
-/

namespace MigrationLint

/-- A stack of nodes. The last node of the array is on top. -/
structure NodeStack where
  /-- The nodes from the bottom up. -/
  nodes : Array Node

namespace NodeStack

/-- The stack that a traversal of a node, and of all nodes below it, starts with. -/
def ofNode (n : Node) : NodeStack :=
  ⟨#[n]⟩

/-- The stack that a traversal of a tree starts with. The first node at the top level is on top. -/
def ofTree (t : Tree) : NodeStack :=
  ⟨t.nodes.reverse.toArray⟩

/-- Visits the node on top, if there is one, and leaves its children in its place. -/
def next (s : NodeStack) : Option Node × NodeStack :=
  match s.nodes.back? with
  | none => (none, s)
  | some n => (some n, ⟨s.nodes.pop ++ n.children.reverse⟩)

/-- The stack after a number of visits. -/
def after (s : NodeStack) : Nat → NodeStack
  | 0 => s
  | k + 1 => (s.after k).next.2

end NodeStack

end MigrationLint
