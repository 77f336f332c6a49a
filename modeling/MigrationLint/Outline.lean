/-!
# Outlines

An outline lists the nodes of a forest in preorder, each with its depth: a row is a child of the
nearest row above it that is less deep.
-/

namespace MigrationLint.Outline

/-- Puts one row in front of the trees that the rows below it form. Trees that lie deeper become
its children. -/
def attach {α τ : Type} (node : α → List τ → τ) (row : Nat × α) (below : List (Nat × τ)) :
    List (Nat × τ) :=
  let (inside, after) := below.span fun t => row.1 < t.1
  (row.1, node row.2 (inside.map (·.2))) :: after

/-- The forest that an outline lists. -/
def forest {α τ : Type} (node : α → List τ → τ) (rows : List (Nat × α)) : List τ :=
  (rows.foldr (attach node) []).map (·.2)

end MigrationLint.Outline
