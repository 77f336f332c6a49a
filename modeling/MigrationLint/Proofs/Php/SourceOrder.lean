import MigrationLint.Proofs.Php.Verdict

/-!
# Source order

If the nodes of a concrete tree start one after the other, then so do those of the syntax tree: the
conversion drops nodes and takes others out of blocks and bodies, but it moves none past another one. So
the first method with a name in preorder is the one that comes first in the text.

* `Cst.InSourceOrder`: the nodes of a concrete tree start one after the other;
* `ComesFrom`: the nodes of a forest of the syntax tree stand for concrete trees, in their order;
* `comesFrom_nodesOf`: what a concrete tree contributes comes from the tree and the trees below it;
* `Tree.method?_eq_some_iff`: which method is found under a name;
* `first_declaration_wins`: both, for the syntax tree of a text.
-/

namespace MigrationLint

/-! ## Methods with a name -/

/-- The node is a method and declares a given name. -/
def Node.Declares (n : Node) (name : String) : Prop :=
  n.kind = .method ∧ n.name = some name

instance (n : Node) (name : String) : Decidable (n.Declares name) :=
  inferInstanceAs (Decidable (_ ∧ _))

theorem Node.Declares.ofNode?_eq {n : Node} {name : String} (h : n.Declares name) :
    Method.ofNode? n = some ⟨name, n.line, n.children⟩ := by
  rw [Method.ofNode?, if_pos h.1, h.2, Option.getD_some]

namespace Tree

variable {t : Tree} {name : String} {m : Method}

/-- What is found under a name is the method that the first node with this name declares. -/
theorem method?_eq_map (hname : name ≠ "") :
    t.method? name =
      (t.preorder.find? fun n => decide (n.Declares name)).map fun n =>
        ⟨name, n.line, n.children⟩ := by
  have hbind : t.method? name =
      (t.preorder.find? fun n => decide (n.Declares name)).bind Method.ofNode? :=
    method?_eq_bind hname
  rw [hbind]
  cases hn : t.preorder.find? fun n => decide (n.Declares name) with
  | none => rfl
  | some n =>
    have hdeclares := List.find?_some hn
    exact (of_decide_eq_true hdeclares).ofNode?_eq

/-- A method is found under a name iff a node declares it and none before that declares one with this
name. -/
theorem method?_eq_some_iff (hname : name ≠ "") :
    t.method? name = some m ↔
      ∃ before n after, t.preorder = before ++ n :: after ∧ n.Declares name ∧
        (∀ k ∈ before, ¬k.Declares name) ∧ m = ⟨name, n.line, n.children⟩ := by
  rw [method?_eq_map hname, Option.map_eq_some_iff]
  simp only [List.find?_eq_some_iff_append, decide_eq_true_eq, Bool.not_eq_true',
    decide_eq_false_iff_not]
  constructor
  · rintro ⟨n, ⟨hdeclares, before, after, hsplit, hfirst⟩, rfl⟩
    exact ⟨before, n, after, hsplit, hdeclares, hfirst, rfl⟩
  · rintro ⟨before, n, after, hsplit, hdeclares, hfirst, rfl⟩
    exact ⟨n, ⟨hdeclares, before, after, hsplit, hfirst⟩, rfl⟩

/-- No method is found under a name iff no node declares one. -/
theorem method?_eq_none_iff (hname : name ≠ "") :
    t.method? name = none ↔ ∀ n ∈ t.preorder, ¬n.Declares name := by
  rw [method?_eq_map hname, Option.map_eq_none_iff, List.find?_eq_none]
  simp only [decide_eq_true_eq]

/-- If lines never go down in preorder, no method with the same name stands above the one that is
found. -/
theorem line_le_of_method? (hname : name ≠ "")
    (hlines : t.preorder.Pairwise fun n n' => n.line ≤ n'.line) (h : t.method? name = some m)
    {n : Node} (hn : n ∈ t.preorder) (hdeclares : n.Declares name) : m.line ≤ n.line := by
  obtain ⟨before, k, after, hsplit, -, hfirst, rfl⟩ := (method?_eq_some_iff hname).mp h
  rw [hsplit] at hn hlines
  -- a node with this name does not stand before the one that is found
  rcases List.mem_append.mp hn with hbefore | hafter
  · exact absurd hdeclares (hfirst n hbefore)
  · rcases List.mem_cons.mp hafter with rfl | hafter
    · exact Nat.le_refl _
    · have hrest := (List.pairwise_append.mp hlines).2.1
      exact (List.pairwise_cons.mp hrest).1 n hafter

end Tree

namespace Php

/-! ## The order of concrete trees -/

/-- A node starts at the same place as another one, or before it. -/
def Label.StartsNoLater (l l' : Label) : Prop :=
  l.row < l'.row ∨ l.row = l'.row ∧ l.column ≤ l'.column

instance : DecidableRel Label.StartsNoLater :=
  fun _ _ => inferInstanceAs (Decidable (_ ∨ _))

theorem Label.StartsNoLater.row_le {l l' : Label} (h : l.StartsNoLater l') : l.row ≤ l'.row := by
  rcases h with hrow | ⟨hrow, -⟩
  · exact Nat.le_of_lt hrow
  · exact Nat.le_of_eq hrow

namespace Cst

/-- No node starts before another one that comes before it in preorder. -/
def InSourceOrder (root : Cst) : Prop :=
  root.nodes.Pairwise fun c d => c.label.StartsNoLater d.label

instance (root : Cst) : Decidable root.InSourceOrder :=
  inferInstanceAs (Decidable (List.Pairwise _ _))

end Cst

/-! ## What the conversion keeps in order -/

open Cst

/-- The nodes of a forest stand for some of given concrete trees, and come in their order. -/
def ComesFrom (source : List Char) (ns : List Node) (cs : List Cst) : Prop :=
  ∃ ds : List Cst, ds.Sublist cs ∧ Node.flattenAll ns = ds.map (node source)

namespace ComesFrom

variable {source : List Char} {ns ms : List Node} {cs ds : List Cst}

theorem nil (source : List Char) (cs : List Cst) : ComesFrom source [] cs :=
  ⟨[], List.nil_sublist cs, rfl⟩

/-- There may be more concrete trees than the nodes stand for. -/
theorem mono (h : ComesFrom source ns cs) (hsub : cs.Sublist ds) : ComesFrom source ns ds := by
  obtain ⟨kept, hkept, hnodes⟩ := h
  exact ⟨kept, hkept.trans hsub, hnodes⟩

theorem append (h : ComesFrom source ns cs) (h' : ComesFrom source ms ds) :
    ComesFrom source (ns ++ ms) (cs ++ ds) := by
  obtain ⟨kept, hkept, hnodes⟩ := h
  obtain ⟨kept', hkept', hnodes'⟩ := h'
  refine ⟨kept ++ kept', hkept.append hkept', ?_⟩
  rw [Node.flattenAll_append, hnodes, hnodes', List.map_append]

/-- The node of a concrete tree comes before what comes from below the tree. -/
theorem node {c : Cst} (h : ComesFrom source (c.node source).children cs) :
    ComesFrom source [c.node source] (c :: cs) := by
  obtain ⟨kept, hkept, hnodes⟩ := h
  refine ⟨c :: kept, hkept.cons_cons c, ?_⟩
  rw [Node.flattenAll, Node.flattenAll, List.append_nil, Node.flatten_eq, hnodes, List.map_cons]

/-- Nodes that come from trees in source order have lines that never go down. -/
theorem pairwise_line (h : ComesFrom source ns cs)
    (horder : cs.Pairwise fun c d => c.label.StartsNoLater d.label) :
    (Node.flattenAll ns).Pairwise fun n n' => n.line ≤ n'.line := by
  obtain ⟨kept, hkept, hnodes⟩ := h
  rw [hnodes, List.pairwise_map]
  -- a line is a row, counted from one
  exact (horder.sublist hkept).imp fun hstart => Nat.succ_le_succ hstart.row_le

end ComesFrom

mutual

/-- What a tree contributes comes from the tree and the trees below it. -/
theorem comesFrom_nodesOf (source : List Char) :
    ∀ c : Cst, ComesFrom source (nodesOf source c) c.nodes
  | ⟨label, children⟩ => by
    have hall := comesFrom_nodesOfAll source children
    have hbody := comesFrom_nodesOfBody source children
    rw [nodes]
    by_cases hanonymous : label.named = false
    · rw [nodesOf_of_not_named hanonymous]
      exact .nil source _
    have hnamed : label.named = true := Bool.of_not_eq_false hanonymous
    by_cases hignored : label.kind ∈ ignoredKinds
    · rw [nodesOf_of_ignored hignored]
      exact .nil source _
    by_cases hblock : label.kind = blockKind
    · -- a block leaves its own place in the order to nobody
      rw [nodesOf_of_block hnamed hblock]
      exact hall.mono (List.sublist_cons_self _ _)
    · rw [nodesOf_of_isKept hnamed (isKept_iff.mpr ⟨hignored, hblock⟩)]
      refine .node ?_
      have hchildren : (node source ⟨label, children⟩).children =
          if keepsBody (kindOf label children) then nodesOfBody source children
          else nodesOfAll source children := rfl
      rw [hchildren]
      split
      · exact hbody
      · exact hall

/-- What a forest contributes comes from its trees and the trees below them. -/
theorem comesFrom_nodesOfAll (source : List Char) :
    ∀ cs : List Cst, ComesFrom source (nodesOfAll source cs) (nodesIn cs)
  | [] => .nil source _
  | c :: cs => by
    rw [nodesOfAll, nodesIn]
    exact (comesFrom_nodesOf source c).append (comesFrom_nodesOfAll source cs)

/-- What the body in a forest contributes comes from the trees below it. -/
theorem comesFrom_nodesOfBody (source : List Char) :
    ∀ cs : List Cst, ComesFrom source (nodesOfBody source cs) (nodesIn cs)
  | [] => .nil source _
  | ⟨label, children⟩ :: cs => by
    rw [nodesOfBody, nodesIn, nodes]
    -- the first body counts, without a node of its own
    split
    · refine (comesFrom_nodesOfAll source children).mono ?_
      exact (List.sublist_cons_self _ _).trans (List.sublist_append_left _ _)
    · exact (comesFrom_nodesOfBody source cs).mono (List.sublist_append_right _ _)

end

/-- In the syntax tree of a text without errors, whose concrete tree is in source order, lines never go
down in preorder. The method that is found under a name is declared by the first node that declares a
method with this name, so that none with the same name stands on a line above it, and there is none only
if no node declares one. -/
theorem first_declaration_wins {grammar : Grammar} {source : String} {root : Cst}
    (hroot : grammar source = some root) (herror : root.ErrorFree) (horder : root.InSourceOrder) :
    ∃ tree, parse grammar source = .ok tree ∧
      (tree.preorder.Pairwise fun n n' => n.line ≤ n'.line) ∧
      ∀ name : String, name ≠ "" →
        (∀ m, tree.method? name = some m ↔
          ∃ before n after, tree.preorder = before ++ n :: after ∧ n.Declares name ∧
            (∀ k ∈ before, ¬k.Declares name) ∧ m = ⟨name, n.line, n.children⟩) ∧
        (∀ m, tree.method? name = some m →
          ∀ n ∈ tree.preorder, n.Declares name → m.line ≤ n.line) ∧
        (tree.method? name = none ↔ ∀ n ∈ tree.preorder, ¬n.Declares name) := by
  let tree : Tree := ⟨nodesOfAll source.toList root.children⟩
  have hcomes : ComesFrom source.toList tree.nodes root.nodes := by
    rw [nodes_eq]
    exact (comesFrom_nodesOfAll source.toList root.children).mono (List.sublist_cons_self _ _)
  have hlines : tree.preorder.Pairwise fun n n' => n.line ≤ n'.line := by
    rw [tree.preorder_eq_flattenAll]
    exact hcomes.pairwise_line horder
  refine ⟨tree, (parse_eq_ok_iff hroot).mpr ⟨herror.hasError, rfl⟩, hlines, fun name hname => ?_⟩
  exact ⟨fun m => Tree.method?_eq_some_iff hname,
    fun m hm n hn hdeclares => Tree.line_le_of_method? hname hlines hm hn hdeclares,
    Tree.method?_eq_none_iff hname⟩

/-! ## An example -/

namespace Cst

/-- A named tree without errors that starts at a given row and column. -/
def placed (kind : String) (field : Option String) (first last row column : Nat)
    (children : List Cst) : Cst :=
  ⟨⟨kind, true, false, false, false, field, first, last, row, column⟩, children⟩

/-- A function and two classes, all of them on lines of their own. Each class has a method with the name
of the function. -/
def rivalsText : String :=
  "<?php\nfunction down() \x7b\x7d\nclass A \x7b function down() \x7b\x7d \x7d\n" ++
    "class B \x7b function down() \x7b\x7d \x7d\n"

/-- The concrete tree of one of the classes. -/
def rival (first row : Nat) : Cst :=
  placed "class_declaration" none first (first + 30) row 0 [
    placed "name" (some "name") (first + 6) (first + 7) row 6 [],
    placed "declaration_list" (some "body") (first + 8) (first + 30) row 8 [
      placed "method_declaration" none (first + 10) (first + 28) row 10 [
        placed "name" (some "name") (first + 19) (first + 23) row 19 [],
        placed "formal_parameters" (some "parameters") (first + 23) (first + 25) row 23 [],
        placed "compound_statement" (some "body") (first + 26) (first + 28) row 26 []]]]

/-- The concrete tree of the text, without its tokens. -/
def rivals : Cst :=
  placed "program" none 0 87 0 0 [placed "php_tag" none 0 5 0 0 [],
    placed "function_definition" none 6 24 1 0 [
      placed "name" (some "name") 15 19 1 9 [],
      placed "formal_parameters" (some "parameters") 19 21 1 13 [],
      placed "compound_statement" (some "body") 22 24 1 16 []],
    rival 25 2, rival 56 3]

end Cst

set_option maxRecDepth 4000 in
/-- The method of the first class is the one that is found, on the third line. -/
theorem rivals_first_declaration_wins :
    rivals.ErrorFree ∧ rivals.InSourceOrder ∧ "down" ≠ "" ∧
      ∃ tree, parse (fun _ => some rivals) rivalsText = .ok tree ∧
        (tree.preorder.Pairwise fun n n' => n.line ≤ n'.line) ∧
        tree.method? "down" = some ⟨"down", 3, []⟩ ∧
        ∀ n ∈ tree.preorder, n.Declares "down" → 3 ≤ n.line := by
  have herror : rivals.ErrorFree := by decide
  have horder : rivals.InSourceOrder := by decide
  have hname : "down" ≠ "" := by decide
  obtain ⟨tree, hparse, hlines, hmethods⟩ :=
    @first_declaration_wins (fun _ => some rivals) rivalsText rivals rfl herror horder
  obtain ⟨-, hleast, -⟩ := hmethods "down" hname
  have hfound : tree.method? "down" = some ⟨"down", 3, []⟩ := by
    obtain rfl := ((parse_eq_ok_iff rfl).mp hparse).2
    rw [Tree.method?_eq_map hname, Tree.preorder_eq_flattenAll]
    rfl
  exact ⟨herror, horder, hname, tree, hparse, hlines, hfound, hleast _ hfound⟩

end Php

end MigrationLint
