import MigrationLint.Proofs.Php.Reach
import MigrationLint.Proofs.Php.Wellformed

/-!
# Retained nodes

The syntax tree of a PHP text keeps some nodes of its concrete tree and nothing else. This file says
which ones, and what the syntax tree tells about them, without reference to the conversion.

* `Cst.Retained`: the nodes that are kept, each at its address;
* `Cst.NearestRetained`: the node below which a retained node ends up;
* `Cst.tag`: kind, name and line of a retained node;
* `Cst.tag_node`: the conversion gives a retained node its tag.
-/

namespace MigrationLint

/-- What a node says about itself. -/
structure Tag where
  /-- What the node stands for. -/
  kind : Kind
  /-- The declared name, if the node has one. -/
  name : Option String
  /-- The line that the node starts on, counted from one. -/
  line : Nat
  deriving DecidableEq, Repr

/-- What a node of a syntax tree says about itself. -/
def Node.tag (n : Node) : Tag :=
  ⟨n.kind, n.name, n.line⟩

namespace Php

namespace Cst

/-! ## Retained nodes -/

/-- The index of the first child with the role of a body. -/
def bodyIndex? (c : Cst) : Option Nat :=
  c.children.findIdx? fun d => d.label.field == some "body"

/-- A path to a retained node may go on from a tree to its child with index `i`: the tree is no
comment and no empty statement, and a method or function is left through its body only. -/
def Opens (c : Cst) (i : Nat) : Prop :=
  c.label.kind ≠ "comment" ∧ c.label.kind ≠ "empty_statement" ∧
    (c.IsRoutine → c.bodyIndex? = some i)

instance : DecidableRel Opens :=
  fun _ _ => inferInstanceAs (Decidable (_ ∧ _ ∧ (_ → _)))

/-- The tree leaves a node of its own in the syntax tree. -/
def IsKept (c : Cst) : Prop :=
  c.label.kind ∉ ["comment", "empty_statement", "compound_statement"]

instance : DecidablePred IsKept :=
  fun _ => inferInstanceAs (Decidable (¬_))

/-- The concrete node at an address below a root is retained. -/
def Retained (root : Cst) (a : Address) (c : Cst) : Prop :=
  Below Opens root a c ∧ c.IsKept

/-- A path may leave a tree that is not ignored; a method or function, through its body only. -/
theorem opens_iff {c : Cst} {i : Nat} :
    Opens c i ↔ c.label.kind ∉ ignoredKinds ∧ (c.IsRoutine → c.bodyIndex? = some i) := by
  simp [Opens, ignoredKinds, and_assoc]

/-- A tree leaves a node of its own iff it is not ignored and no block. -/
theorem isKept_iff {c : Cst} :
    c.IsKept ↔ c.label.kind ∉ ignoredKinds ∧ c.label.kind ≠ blockKind := by
  simp [IsKept, ignoredKinds, blockKind, and_assoc]

/-- A block is no method and no function. -/
theorem not_isRoutine_of_block {c : Cst} (hblock : c.label.kind = blockKind) : ¬c.IsRoutine := by
  simp [IsRoutine, hblock, blockKind]

/-- Those places whose tree leaves a node of its own. -/
def onlyKept (places : List (Address × Cst)) : List (Address × Cst) :=
  places.filter fun p => p.2.IsKept

/-- The retained nodes of a concrete tree, in preorder. -/
def retained (root : Cst) : List (Address × Cst) :=
  onlyKept (root.reachedBelow Opens)

/-- The retained nodes are listed in preorder. -/
theorem retained_enumerates (root : Cst) : Enumerates root.Retained root.retained :=
  (reachedBelow_enumerates root).filter IsKept

theorem onlyKept_cons_of_kept {a : Address} {c : Cst} {places : List (Address × Cst)}
    (h : c.IsKept) : onlyKept ((a, c) :: places) = (a, c) :: onlyKept places :=
  List.filter_cons_of_pos (decide_eq_true h)

theorem onlyKept_cons_of_not_kept {a : Address} {c : Cst} {places : List (Address × Cst)}
    (h : ¬c.IsKept) : onlyKept ((a, c) :: places) = onlyKept places :=
  List.filter_cons_of_neg (by simpa using h)

theorem mem_of_mem_onlyKept {p : Address × Cst} {places : List (Address × Cst)}
    (h : p ∈ onlyKept places) : p ∈ places :=
  (List.mem_filter.mp h).1

theorem onlyKept_append (ps qs : List (Address × Cst)) :
    onlyKept (ps ++ qs) = onlyKept ps ++ onlyKept qs :=
  List.filter_append ..

/-- Whether a place is left out does not depend on its address. -/
theorem onlyKept_under (i : Nat) (places : List (Address × Cst)) :
    onlyKept (under i places) = under i (onlyKept places) := by
  rw [onlyKept, under, List.filter_map]
  rfl

/-- The node at `b` is the nearest retained ancestor of the node at `a`. -/
structure NearestRetained (root : Cst) (a b : Address) : Prop where
  /-- The node is retained. -/
  retained : ∃ c, root.Retained b c
  /-- It is an ancestor. -/
  above : b <+: a ∧ b ≠ a
  /-- All other retained ancestors are above it. -/
  nearest : ∀ b' c, root.Retained b' c → b' <+: a → b' ≠ a → b' <+: b

/-! ## Tags -/

/-- Comments aside, a throw expression is the only named child. -/
def IsBareThrow (c : Cst) : Prop :=
  (c.children.filter fun d => d.label.named && d.label.kind != "comment").map (·.label.kind) =
    ["throw_expression"]

instance (c : Cst) : Decidable c.IsBareThrow :=
  inferInstanceAs (Decidable (_ = _))

/-- The text of the first child with the role of a name. -/
def nameText? (source : List Char) (c : Cst) : Option String :=
  (withField? "name" c.children).bind fun d =>
    (Utf8.slice? source d.label.first d.label.last).map String.ofList

/-- What a retained node stands for in the syntax tree. -/
def tagKind (c : Cst) : Kind :=
  match c.label.kind with
  | "method_declaration" => .method
  | "function_definition" => .function
  | "class_declaration" | "interface_declaration" | "trait_declaration" | "enum_declaration"
  | "anonymous_class" => .classLike
  | "throw_statement" => .throw
  | "expression_statement" => if c.IsBareThrow then .throw else .other "expression_statement"
  | kind => .other kind

/-- What the syntax tree says about a retained node. Methods, functions and classes have names, and
lines count from one. -/
def tag (source : List Char) (c : Cst) : Tag where
  kind := c.tagKind
  name :=
    match c.tagKind with
    | .method | .function | .classLike => c.nameText? source
    | .throw | .other _ => none
  line := c.label.row + 1

/-- The node that a tree leaves in the syntax tree, if it leaves one of its own. -/
def node (source : List Char) (c : Cst) : Node :=
  let kind := kindOf c.label c.children
  { kind
    name := if declares kind then nameOf? source c.children else none
    line := c.label.row + 1
    children :=
      if keepsBody kind then nodesOfBody source c.children else nodesOfAll source c.children }

/-- What a tree contributes to the syntax tree: nothing, the nodes of a block, or its own node. -/
theorem nodesOf_eq (source : List Char) (c : Cst) :
    nodesOf source c =
      if !c.label.named || c.label.kind ∈ ignoredKinds then []
      else if c.label.kind = blockKind then nodesOfAll source c.children
      else [c.node source] := by
  cases c
  rw [nodesOf, node]

section NodesOf

variable {source : List Char} {c : Cst}

theorem nodesOf_of_not_named (hnamed : c.label.named = false) : nodesOf source c = [] := by
  rw [nodesOf_eq, if_pos (by simp [hnamed])]

theorem nodesOf_of_ignored (hignored : c.label.kind ∈ ignoredKinds) : nodesOf source c = [] := by
  rw [nodesOf_eq, if_pos (by simp [hignored])]

theorem nodesOf_of_block (hnamed : c.label.named = true) (hblock : c.label.kind = blockKind) :
    nodesOf source c = nodesOfAll source c.children := by
  rw [nodesOf_eq, if_neg (by simp [hnamed, hblock, blockKind, ignoredKinds]), if_pos hblock]

theorem nodesOf_of_isKept (hnamed : c.label.named = true) (hkept : c.IsKept) :
    nodesOf source c = [c.node source] := by
  obtain ⟨hignored, hblock⟩ := isKept_iff.mp hkept
  rw [nodesOf_eq, if_neg (by simp [hnamed, hignored]), if_neg hblock]

end NodesOf

/-- The body in a forest is its first tree with that role. -/
theorem nodesOfBody_cons (source : List Char) (c : Cst) (cs : List Cst) :
    nodesOfBody source (c :: cs) =
      if c.label.field = some "body" then nodesOfAll source c.children
      else nodesOfBody source cs := by
  cases c
  rw [nodesOfBody]

/-- A forest has the nodes of its first body, if there is one. -/
theorem nodesOfBody_eq (source : List Char) (cs : List Cst) :
    nodesOfBody source cs =
      ((withField? "body" cs).map fun body => nodesOfAll source body.children).getD [] := by
  induction cs with
  | nil => rfl
  | cons c cs ih =>
    rw [nodesOfBody_cons, withField?, List.find?_cons]
    by_cases hbody : c.label.field = some "body"
    · simp [hbody]
    · rw [if_neg hbody, ih, beq_eq_false_iff_ne.mpr hbody]
      rfl

theorem nodesOfAll_singleton (source : List Char) (c : Cst) :
    nodesOfAll source [c] = nodesOf source c := by
  rw [nodesOfAll, nodesOfAll, List.append_nil]

theorem nodesOfAll_append (source : List Char) (cs ds : List Cst) :
    nodesOfAll source (cs ++ ds) = nodesOfAll source cs ++ nodesOfAll source ds := by
  induction cs with
  | nil => rfl
  | cons c cs ih => rw [List.cons_append, nodesOfAll, ih, nodesOfAll, List.append_assoc]

/-- The conversion recognises bare throws. -/
theorem isBareThrow_eq_true_iff (c : Cst) : isBareThrow c.children = true ↔ c.IsBareThrow := by
  rw [IsBareThrow, isBareThrow]
  split
  · next d hd => simp [hd]
  · next hd =>
    -- a list of one kind would come from a list of one tree
    simp only [Bool.false_eq_true, false_iff]
    intro hmap
    obtain ⟨d, hsingle, -⟩ := List.map_eq_singleton_iff.mp hmap
    exact hd d hsingle

/-- The conversion gives every node the kind that its tag has. -/
theorem kindOf_eq_tagKind (c : Cst) : kindOf c.label c.children = c.tagKind := by
  unfold tagKind
  split
  all_goals simp_all [kindOf, classKinds, isBareThrow_eq_true_iff]

/-- The conversion takes names from the child that has that role. -/
theorem nameOf?_eq_nameText? (source : List Char) (c : Cst) :
    nameOf? source c.children = c.nameText? source := by
  rw [nameOf?, nameText?]
  cases withField? "name" c.children with
  | none => rfl
  | some d => cases h : Utf8.slice? source d.label.first d.label.last <;> simp [h]

/-- The node of a tree has the tag of the tree. -/
theorem tag_node (source : List Char) (c : Cst) : (c.node source).tag = c.tag source := by
  simp only [node, Node.tag, tag, kindOf_eq_tagKind, nameOf?_eq_nameText?, declares]
  cases c.tagKind <;> rfl

/-- Methods and functions are the nodes that keep only their bodies. -/
theorem keepsBody_kindOf (c : Cst) :
    keepsBody (kindOf c.label c.children) = true ↔ c.IsRoutine := by
  rw [kindOf, IsRoutine]
  by_cases hmethod : c.label.kind = "method_declaration"
  · simp [hmethod, keepsBody]
  by_cases hfunction : c.label.kind = "function_definition"
  · simp [hfunction, keepsBody]
  rw [if_neg hmethod, if_neg hfunction]
  simp only [hmethod, hfunction, or_self, iff_false]
  -- no other kind of node keeps only its body
  repeat' split
  all_goals simp [keepsBody]

end Cst

end Php

end MigrationLint
