import MigrationLint.Check.Verdict
import MigrationLint.Tree.Traversal

/-!
# The rollback rule

A migration that must never be rolled back says so in its rollback method: the method consists of
exactly one statement, and that statement is a throw. What is thrown does not matter. The rollback
method of a file is the first method in preorder with the right name.
-/

namespace MigrationLint

/-- A method of a syntax tree. -/
structure Method where
  /-- The declared name, empty when there is none. -/
  name : String
  /-- The line that the declaration starts on. -/
  line : Nat
  /-- The statements of the body. -/
  statements : List Node

/-- The method that a node declares. -/
def Method.ofNode? (n : Node) : Option Method :=
  if n.kind = .method then some ⟨n.name.getD "", n.line, n.children⟩ else none

namespace Tree

/-- All methods of a tree, in preorder. -/
def methods (t : Tree) : List Method :=
  t.preorder.filterMap Method.ofNode?

/-- The first method with a given name. -/
def method? (t : Tree) (name : String) : Option Method :=
  t.methods.find? fun m => m.name == name

end Tree

/-- What the rule says about a rollback method, or about there being none. -/
def ruleVerdict : Option Method → Verdict
  | none => .fail .missingMethod
  | some m =>
    match m.statements with
    | [] => .fail .emptyBody
    | [s] => if s.isThrow then .pass else .fail .notSoleThrow
    | _ => .fail .notSoleThrow

/-- What the rule says about a file with a given syntax tree. -/
def Tree.verdict (t : Tree) (method : String) : Verdict :=
  ruleVerdict (t.method? method)

end MigrationLint
