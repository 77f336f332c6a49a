import MigrationLint.Php.Parser

/-!
# What a grammar promises about its concrete trees

A concrete tree says at each node whether an error lies at or below it, and the body of a method or
function is a block. This file states both as properties of a tree and shows what they mean for the
syntax tree of a text.

* `parse_eq_ok_iff`: a text has a syntax tree iff the root of its concrete tree says that there is
  no error;
* `Cst.hasError_eq_false_iff`: if the trees say so truthfully, that is the case iff no node is an
  error or missing.
-/

namespace MigrationLint.Php

/-- The node covers text that could not be parsed, or stands for a token that is not there. -/
def Label.IsFault (label : Label) : Prop :=
  label.isError = true ∨ label.isMissing = true

instance (label : Label) : Decidable label.IsFault :=
  inferInstanceAs (Decidable (_ ∨ _))

namespace Cst

/-- What holds of a tree whenever it holds of its children holds of all trees. -/
theorem induction_children {motive : Cst → Prop}
    (step : ∀ c : Cst, (∀ d ∈ c.children, motive d) → motive c) (c : Cst) : motive c :=
  step c fun d hd =>
    have : sizeOf d < sizeOf c := by
      obtain ⟨label, children⟩ := c
      have hlt : sizeOf d < sizeOf children := List.sizeOf_lt_of_mem hd
      rw [mk.sizeOf_spec]
      omega
    induction_children step d
termination_by sizeOf c

mutual

/-- The tree and all trees below it. -/
def nodes : Cst → List Cst
  | ⟨label, children⟩ => ⟨label, children⟩ :: nodesIn children

/-- The trees of a forest and all trees below them. -/
def nodesIn : List Cst → List Cst
  | [] => []
  | c :: cs => nodes c ++ nodesIn cs

end

theorem nodes_eq (c : Cst) : c.nodes = c :: nodesIn c.children := by
  cases c
  rw [nodes]

theorem mem_nodesIn_iff {d : Cst} {cs : List Cst} :
    d ∈ nodesIn cs ↔ ∃ c ∈ cs, d ∈ c.nodes := by
  induction cs with
  | nil => simp [nodesIn]
  | cons c cs ih => simp only [nodesIn, List.mem_append, ih, List.mem_cons, exists_eq_or_imp]

theorem self_mem_nodes (c : Cst) : c ∈ c.nodes := by
  rw [nodes_eq]
  exact List.mem_cons_self

theorem mem_nodes_iff {c d : Cst} : d ∈ c.nodes ↔ d = c ∨ ∃ b ∈ c.children, d ∈ b.nodes := by
  rw [nodes_eq, List.mem_cons, mem_nodesIn_iff]

theorem mem_nodes_of_mem_children {c d e : Cst} (hd : d ∈ c.children) (he : e ∈ d.nodes) :
    e ∈ c.nodes :=
  mem_nodes_iff.mpr (.inr ⟨d, hd, he⟩)

/-- Each node says that it has an error iff it, or a node below it, is an error or missing. -/
def FlagsConsistent (root : Cst) : Prop :=
  ∀ c ∈ root.nodes, c.label.hasError = true ↔ ∃ d ∈ c.nodes, d.label.IsFault

/-- No node is an error or missing. -/
def FaultFree (root : Cst) : Prop :=
  ∀ c ∈ root.nodes, ¬c.label.IsFault

/-- No node is an error or missing, or says that it has an error. -/
def ErrorFree (root : Cst) : Prop :=
  ∀ c ∈ root.nodes, ¬c.label.IsFault ∧ c.label.hasError = false

/-- The tree declares a method or a function. -/
def IsRoutine (c : Cst) : Prop :=
  c.label.kind = "method_declaration" ∨ c.label.kind = "function_definition"

/-- Whatever has the role of a body in a method or function is a block. -/
def BodiesAreBlocks (root : Cst) : Prop :=
  ∀ c ∈ root.nodes, c.IsRoutine → ∀ b ∈ c.children, b.label.field = some "body" →
    b.label.named = true ∧ b.label.kind = "compound_statement"

instance (root : Cst) : Decidable root.FlagsConsistent :=
  inferInstanceAs (Decidable (∀ c ∈ root.nodes, _))

instance (root : Cst) : Decidable root.FaultFree :=
  inferInstanceAs (Decidable (∀ c ∈ root.nodes, _))

instance (root : Cst) : Decidable root.ErrorFree :=
  inferInstanceAs (Decidable (∀ c ∈ root.nodes, _))

instance (c : Cst) : Decidable c.IsRoutine :=
  inferInstanceAs (Decidable (_ ∨ _))

instance (root : Cst) : Decidable root.BodiesAreBlocks :=
  inferInstanceAs (Decidable (∀ c ∈ root.nodes, _))

/-- Trees that are told truthfully to have no error have none. -/
theorem hasError_eq_false_iff {root : Cst} (hflags : root.FlagsConsistent) :
    root.label.hasError = false ↔ root.FaultFree := by
  rw [← Bool.not_eq_true, hflags root root.self_mem_nodes]
  exact ⟨fun h c hc hfault => h ⟨c, hc, hfault⟩, fun h ⟨c, hc, hfault⟩ => h c hc hfault⟩

/-- The root of a tree without errors says so. -/
theorem ErrorFree.hasError {root : Cst} (h : root.ErrorFree) : root.label.hasError = false :=
  (h root root.self_mem_nodes).2

/-- What holds of the bodies in a tree holds of those below it. -/
theorem BodiesAreBlocks.child {c d : Cst} (h : c.BodiesAreBlocks) (hd : d ∈ c.children) :
    d.BodiesAreBlocks :=
  fun e he => h e (mem_nodes_of_mem_children hd he)

end Cst

/-- A text has a syntax tree iff the root of its concrete tree has no error. -/
theorem parse_eq_ok_iff {grammar : Grammar} {source : String} {root : Cst} {tree : Tree}
    (hroot : grammar source = some root) :
    parse grammar source = .ok tree ↔
      root.label.hasError = false ∧ tree = ⟨nodesOfAll source.toList root.children⟩ := by
  rw [parse, hroot]
  simp only [treeOf]
  split
  · next herror =>
    -- whether or not the fault is found, there is no syntax tree
    rw [herror]
    split <;> simp
  · next herror =>
    rw [Bool.not_eq_true] at herror
    simp [herror, eq_comm]

/-! ## An example -/

namespace Cst

/-- A named tree without errors, on the first row. -/
def plain (kind : String) (field : Option String) (first last : Nat) (children : List Cst) : Cst :=
  ⟨⟨kind, true, false, false, false, field, first, last, 0, first⟩, children⟩

/-- A token, on the first row. -/
def token (kind : String) (first : Nat) : Cst :=
  ⟨⟨kind, false, false, false, false, none, first, first + kind.length, 0, first⟩, []⟩

/-- A migration that must not be rolled back. Its method has a redundant block and a stray
semicolon. -/
def sampleText : String :=
  "<?php class M \x7b function down() \x7b \x7b throw $e; \x7d ; \x7d \x7d"

/-- The throw in the sample. -/
def sampleThrow : Cst :=
  plain "expression_statement" none 36 45 [
    plain "throw_expression" none 36 44 [token "throw" 36,
      plain "variable_name" none 42 44 [token "$" 42, plain "name" none 43 44 []]],
    token ";" 44]

/-- The block in the sample. -/
def sampleBlock : Cst :=
  plain "compound_statement" none 34 47 [token "\x7b" 34, sampleThrow, token "\x7d" 46]

/-- The stray semicolon in the sample. -/
def sampleSemicolon : Cst :=
  plain "empty_statement" none 48 49 [token ";" 48]

/-- The body of the method of the sample, for given statements. -/
def sampleBody (statements : List Cst) : Cst :=
  plain "compound_statement" (some "body") 32 51
    (token "\x7b" 32 :: (statements ++ [token "\x7d" 50]))

/-- The concrete tree of the sample, for given statements. -/
def sampleWith (statements : List Cst) : Cst :=
  plain "program" none 0 53 [plain "php_tag" none 0 5 [],
    plain "class_declaration" none 6 53 [token "class" 6, plain "name" (some "name") 12 13 [],
      plain "declaration_list" (some "body") 14 53 [token "\x7b" 14,
        plain "method_declaration" none 16 51 [token "function" 16,
          plain "name" (some "name") 25 29 [],
          plain "formal_parameters" (some "parameters") 29 31 [token "(" 29, token ")" 30],
          sampleBody statements],
        token "\x7d" 52]]]

/-- The concrete tree of the sample. -/
def sample : Cst :=
  sampleWith [sampleBlock, sampleSemicolon]

/-- A grammar that knows the sample and nothing else. -/
def sampleGrammar : Grammar := fun source =>
  if source = sampleText then some sample else none

end Cst

end MigrationLint.Php
