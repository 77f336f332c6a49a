import MigrationLint.Tree.Basic

/-!
# Preorder traversal

A traversal visits a node before its children and the children from left to right. It keeps the
nodes still to be visited on a stack: visiting the node on top puts its children in its place. The
number of nodes below and on the stack goes down by one with each visit.
-/

namespace MigrationLint

/-- A traversal under way. -/
structure Traversal where
  /-- The roots of what is still to be visited, the next one first. -/
  stack : List Node

namespace Traversal

/-- The number of nodes still to be visited. -/
def size (t : Traversal) : Nat :=
  Node.sizeAll t.stack

/-- The next node and the traversal after it. -/
def next? : Traversal → Option (Node × Traversal)
  | ⟨[]⟩ => none
  | ⟨n :: rest⟩ => some (n, ⟨n.children ++ rest⟩)

theorem size_next {t u : Traversal} {n : Node} (h : t.next? = some (n, u)) :
    t.size = u.size + 1 := by
  obtain ⟨_ | ⟨m, rest⟩⟩ := t
  · simp [next?] at h
  · simp only [next?, Option.some.injEq, Prod.mk.injEq] at h
    obtain ⟨rfl, rfl⟩ := h
    simp only [size, Node.sizeAll, Node.size_eq, Node.sizeAll_append]; omega

/-- The nodes still to be visited, in order. -/
def toList (t : Traversal) : List Node :=
  match _h : t.next? with
  | none => []
  | some (n, u) => n :: u.toList
termination_by t.size
decreasing_by
  have := size_next _h; omega

end Traversal

/-- The node and all nodes below it, in preorder. -/
def Node.preorder (n : Node) : List Node :=
  (Traversal.mk [n]).toList

/-- All nodes of a tree, in preorder. -/
def Tree.preorder (t : Tree) : List Node :=
  (Traversal.mk t.nodes).toList

end MigrationLint
