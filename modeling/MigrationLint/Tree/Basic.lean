/-!
# Syntax trees

What the checks see of a source file. A node carries a kind, sometimes a name, and the line it
starts on; the children of a method are the statements of its body, in order. Nothing here depends
on a particular grammar.
-/

namespace MigrationLint

/-- What a node stands for. -/
inductive Kind
  /-- A class, interface, trait or enumeration, with or without a name. -/
  | classLike
  /-- A method, declared inside a class. -/
  | method
  /-- A function, declared outside classes. -/
  | function
  /-- A statement that does nothing but throw. -/
  | throw
  /-- Anything else, under the name that its grammar gives it. -/
  | other (kind : String)
  deriving DecidableEq, Repr

/-- A node of a syntax tree. -/
structure Node where
  /-- What the node stands for. -/
  kind : Kind
  /-- The declared name, if the node has one. -/
  name : Option String
  /-- The line that the node starts on, counted from one. -/
  line : Nat
  /-- The nodes below it, in source order. -/
  children : List Node

/-- The syntax tree of a source file: its top-level nodes, in source order. -/
structure Tree where
  /-- The top-level nodes. -/
  nodes : List Node

namespace Node

/-- The node does nothing but throw. -/
def isThrow (n : Node) : Bool :=
  n.kind == .throw

mutual

/-- The number of nodes of a tree, its root included. -/
def size : Node → Nat
  | ⟨_, _, _, children⟩ => 1 + sizeAll children

/-- The number of nodes of a forest. -/
def sizeAll : List Node → Nat
  | [] => 0
  | n :: ns => n.size + sizeAll ns

end

mutual

/-- The rows of a node and of all nodes below it, with their depth. -/
def outline (depth : Nat) : Node → List (Nat × Node)
  | ⟨kind, name, line, children⟩ =>
    (depth, ⟨kind, name, line, children⟩) :: outlineAll (depth + 1) children

/-- The rows of the nodes of a forest, with their depth. -/
def outlineAll (depth : Nat) : List Node → List (Nat × Node)
  | [] => []
  | n :: ns => outline depth n ++ outlineAll depth ns

end

theorem size_eq (n : Node) : n.size = 1 + sizeAll n.children := by
  cases n; rw [size]

theorem sizeAll_append (ns ms : List Node) : sizeAll (ns ++ ms) = sizeAll ns + sizeAll ms := by
  induction ns with
  | nil => simp [sizeAll]
  | cons n ns ih => simp only [List.cons_append, sizeAll, ih]; omega

end Node

/-- The rows of the nodes of a tree, with their depth. -/
def Tree.outline (t : Tree) : List (Nat × Node) :=
  Node.outlineAll 0 t.nodes

end MigrationLint
