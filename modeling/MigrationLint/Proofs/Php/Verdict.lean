import MigrationLint.Check.Rule
import MigrationLint.Proofs.Php.Projection

/-!
# The verdict on a PHP file

A PHP file passes iff its rollback method consists of a throw and nothing else. This file says so in
terms of the concrete tree alone, where the method is the first one that can be reached and blocks,
comments and empty statements do not count, and shows that parser and rule together decide it.

* `Cst.FirstMethod`: the method of a concrete tree that the rule looks at;
* `Cst.IsIrreversible`: the condition for a file to pass;
* `verdict_eq_pass_iff_isIrreversible`: parsing and checking a file passes it iff the condition
  holds.
-/

namespace MigrationLint

/-! ## The rule on a syntax tree -/

/-- A tree passes iff its rollback method has a single statement, and that is a throw. -/
theorem Tree.verdict_eq_pass_iff_method {t : Tree} {name : String} :
    t.verdict name = .pass ↔
      ∃ m s, t.method? name = some m ∧ m.statements = [s] ∧ s.kind = .throw := by
  rw [Tree.verdict]
  cases t.method? name with
  | none => simp [ruleVerdict]
  | some m =>
    obtain ⟨_, _, _ | ⟨s, _ | ⟨u, rest⟩⟩⟩ := m
    · simp [ruleVerdict]
    · simp [ruleVerdict, Node.isThrow]
    · simp [ruleVerdict]

/-- The method with a name that is not empty is declared by the first node that declares a method
and has that name. -/
theorem Tree.method?_eq_bind {t : Tree} {name : String} (hname : name ≠ "") :
    t.method? name =
      (t.preorder.find? fun n => n.kind = .method ∧ n.name = some name).bind Method.ofNode? := by
  rw [Tree.method?, Tree.methods, List.find?_filterMap]
  congr 2
  funext n
  -- a method without a name has the empty name in the rule's eyes, so `name` must not be empty
  rw [Method.ofNode?]
  by_cases hmethod : n.kind = .method
  · cases hn : n.name with
    | none => simp [hmethod, Ne.symm hname]
    | some other => simp [hmethod, Bool.beq_eq_decide_eq]
  · simp [hmethod]

namespace Php

namespace Cst

/-! ## The statements of a body -/

/-- A path to a statement leaves blocks only. -/
def InBlock (c : Cst) (_ : Nat) : Prop :=
  c.label.kind = "compound_statement"

instance : DecidableRel InBlock :=
  fun _ _ => inferInstanceAs (Decidable (_ = _))

/-- The concrete node at an address below a body is one of the statements of the body. -/
def Statement (body : Cst) (a : Address) (c : Cst) : Prop :=
  Below InBlock body a c ∧ c.IsKept

/-- The statements of a body, in order. -/
def statements (body : Cst) : List (Address × Cst) :=
  onlyKept (body.reachedBelow InBlock)

/-- The statements of a body are listed in order. -/
theorem statements_enumerates (body : Cst) : Enumerates body.Statement body.statements :=
  (reachedBelow_enumerates body).filter IsKept

mutual

/-- A named tree contributes the nodes of the statements that lie in it. -/
theorem nodesOf_eq_map (source : List Char) : ∀ c : Cst, c.label.named = true →
    nodesOf source c = (onlyKept (c.reached InBlock)).map fun p => p.2.node source
  | ⟨label, children⟩, hnamed => by
    rw [reached_eq]
    by_cases hblock : label.kind = blockKind
    · have hopen : ∀ i, InBlock ⟨label, children⟩ i := fun _ => hblock
      rw [nodesOf_of_block hnamed hblock, onlyKept_cons_of_not_kept (by simp [isKept_iff, hblock])]
      exact nodesOfAll_eq_map source children (fun i => decide_eq_true (hopen i)) 0
    -- nothing below a statement is a statement of the same body
    have hclosed : ∀ i, ¬InBlock ⟨label, children⟩ i := fun _ => hblock
    rw [reachedFrom_eq_nil fun j => decide_eq_false (hclosed (0 + j))]
    by_cases hignored : label.kind ∈ ignoredKinds
    · rw [nodesOf_of_ignored hignored, onlyKept_cons_of_not_kept (by simp [isKept_iff, hignored])]
      rfl
    · have hkept : IsKept ⟨label, children⟩ := isKept_iff.mpr ⟨hignored, hblock⟩
      rw [nodesOf_of_isKept hnamed hkept, onlyKept_cons_of_kept hkept]
      rfl

/-- A forest contributes the nodes of the statements that lie in it. -/
theorem nodesOfAll_eq_map (source : List Char) {isOpen : Nat → Bool} :
    ∀ (cs : List Cst), (∀ i, isOpen i = true) → ∀ i : Nat,
      nodesOfAll source cs =
        (onlyKept (reachedFrom InBlock isOpen i cs)).map fun p => p.2.node source
  | [], _, _ => rfl
  | c :: cs, hopen, i => by
    rw [nodesOfAll, reachedFrom, onlyKept_append, List.map_append,
      nodesOfAll_eq_map source cs hopen (i + 1), hopen, Bool.true_and]
    congr 1
    by_cases hnamed : c.label.named = true
    · rw [if_pos hnamed, nodesOf_eq_map source c hnamed, onlyKept_under, under, List.map_map]
      rfl
    · rw [if_neg hnamed, nodesOf_of_not_named (Bool.eq_false_iff.mpr hnamed)]
      rfl

end

/-- The nodes of a body are those of its statements. -/
theorem nodesOfAll_body (source : List Char) (body : Cst) :
    nodesOfAll source body.children = body.statements.map fun p => p.2.node source :=
  nodesOfAll_eq_map source body.children (fun _ => rfl) 0

/-! ## The condition for a file to pass -/

/-- The statement throws and does nothing else. -/
def OnlyThrows (c : Cst) : Prop :=
  c.label.kind = "throw_statement" ∨ c.label.kind = "expression_statement" ∧ c.IsBareThrow

/-- A statement becomes a throw iff it does nothing else. -/
theorem tagKind_eq_throw_iff {c : Cst} : c.tagKind = .throw ↔ c.OnlyThrows := by
  unfold tagKind OnlyThrows
  split
  all_goals simp_all

/-- The tree declares a method with a given name. -/
def DeclaresMethod (source : List Char) (name : String) (c : Cst) : Prop :=
  c.label.kind = "method_declaration" ∧ c.nameText? source = some name

instance (source : List Char) (name : String) : DecidablePred (DeclaresMethod source name) :=
  fun _ => inferInstanceAs (Decidable (_ ∧ _))

/-- Of all methods with a given name that paths from a root reach, the one at this address comes
first. -/
structure FirstMethod (source : List Char) (root : Cst) (name : String) (a : Address) (c : Cst) :
    Prop where
  /-- A path from the root reaches it. -/
  reachable : Below Opens root a c
  /-- It declares a method with that name. -/
  declares : c.DeclaresMethod source name
  /-- The others come later. -/
  first : ∀ b d, Below Opens root b d → d.DeclaresMethod source name → b = a ∨ a.Before b

/-- No error, and the first method with a given name has a body with a single statement, which does
nothing but throw. -/
def IsIrreversible (source : List Char) (root : Cst) (name : String) : Prop :=
  root.FaultFree ∧
    ∃ a c body, root.FirstMethod source name a c ∧ withField? "body" c.children = some body ∧
      ∃ b s, (∀ b' s', body.Statement b' s' ↔ b' = b ∧ s' = s) ∧ s.OnlyThrows

/-- A method is one of the nodes that are kept. -/
theorem DeclaresMethod.isKept {source : List Char} {name : String} {c : Cst}
    (h : c.DeclaresMethod source name) : c.IsKept := by
  simp [IsKept, h.1]

/-- The node of a tree declares a method with a given name iff the tree does. -/
theorem node_declares_iff {source : List Char} {name : String} {c : Cst} :
    (c.node source).kind = .method ∧ (c.node source).name = some name ↔
      c.DeclaresMethod source name := by
  have hkind : c.tagKind = .method ↔ c.label.kind = "method_declaration" := by
    unfold tagKind
    split
    all_goals simp_all
    split <;> simp
  rw [DeclaresMethod, ← hkind, node, kindOf_eq_tagKind, nameOf?_eq_nameText?]
  simp only [declares]
  cases c.tagKind <;> simp

/-- The node of a method stands for the method, with the nodes of its body. -/
theorem DeclaresMethod.ofNode?_node {source : List Char} {name : String} {c : Cst}
    (h : c.DeclaresMethod source name) :
    Method.ofNode? (c.node source) =
      some ⟨name, c.label.row + 1, nodesOfBody source c.children⟩ := by
  obtain ⟨hkind, hname⟩ := node_declares_iff.mpr h
  have hroutine : c.IsRoutine := .inl h.1
  have hstatements : (c.node source).children = nodesOfBody source c.children :=
    if_pos ((keepsBody_kindOf c).mpr hroutine)
  rw [Method.ofNode?, if_pos hkind, hname, hstatements]
  rfl

/-- The rule looks at the first method with the right name, and sees the nodes of its body. -/
theorem method?_eq_some_iff {source : List Char} {root : Cst} (hblocks : root.BodiesAreBlocks)
    {name : String} (hname : name ≠ "") {m : Method} :
    Tree.method? ⟨nodesOfAll source root.children⟩ name = some m ↔
      ∃ a c, root.FirstMethod source name a c ∧
        ⟨name, c.label.row + 1, nodesOfBody source c.children⟩ = m := by
  have hsearch : ((fun n : Node => decide (n.kind = .method ∧ n.name = some name)) ∘
      fun p : Address × Cst => p.2.node source) =
        fun p => decide (p.2.DeclaresMethod source name) := by
    funext p
    exact decide_eq_decide.mpr node_declares_iff
  rw [Tree.method?_eq_bind hname, Tree.preorder_eq_flattenAll, (corresponds_retained hblocks).nodes,
    List.find?_map, hsearch, Option.bind_map, Option.bind_eq_some_iff, Prod.exists]
  refine exists_congr fun a => exists_congr fun c => ?_
  -- the search runs over retained nodes, but a method that can be reached is one of them
  rw [root.retained_enumerates.find?_eq_some_iff]
  constructor
  · rintro ⟨⟨hretained, hdeclares, hfirst⟩, hm⟩
    refine ⟨⟨hretained.1, hdeclares, fun b d hb hd => hfirst b d ⟨hb, hd.isKept⟩ hd⟩, ?_⟩
    exact Option.some.inj (hdeclares.ofNode?_node.symm.trans hm)
  · rintro ⟨⟨hreachable, hdeclares, hfirst⟩, rfl⟩
    exact ⟨⟨⟨hreachable, hdeclares.isKept⟩, hdeclares, fun b d hb hd => hfirst b d hb.1 hd⟩,
      hdeclares.ofNode?_node⟩

/-- A forest has a throw and nothing else for the nodes of its body iff the body has a single
statement, which does nothing but throw. -/
theorem nodesOfBody_eq_throw_iff {source : List Char} {cs : List Cst} :
    (∃ n, nodesOfBody source cs = [n] ∧ n.kind = .throw) ↔
      ∃ body, withField? "body" cs = some body ∧
        ∃ b s, (∀ b' s', body.Statement b' s' ↔ b' = b ∧ s' = s) ∧ s.OnlyThrows := by
  rw [nodesOfBody_eq]
  cases withField? "body" cs with
  | none => simp
  | some body =>
    rw [Option.map_some, Option.getD_some, nodesOfAll_body]
    constructor
    · rintro ⟨n, hsingle, hthrow⟩
      obtain ⟨⟨b, s⟩, hstatements, rfl⟩ := List.map_eq_singleton_iff.mp hsingle
      refine ⟨body, rfl, b, s, (statements_enumerates body).eq_singleton_iff.mp hstatements, ?_⟩
      rwa [node, kindOf_eq_tagKind, tagKind_eq_throw_iff] at hthrow
    · rintro ⟨_, hbody, b, s, honly, hthrows⟩
      obtain rfl := Option.some.inj hbody
      have hstatements := (statements_enumerates body).eq_singleton_iff.mpr honly
      refine ⟨s.node source, by rw [hstatements, List.map_singleton], ?_⟩
      rwa [node, kindOf_eq_tagKind, tagKind_eq_throw_iff]

end Cst

open Cst

/-- What is made of the syntax tree of a file is made of the syntax tree of its text. -/
theorem parser_map_eq_ok_iff {α : Type} {grammar : Grammar} {path : Path} {source : String}
    {f : Tree → α} {x : α} :
    (parser grammar path source).map f = .ok x ↔ ∃ t, parse grammar source = .ok t ∧ f t = x := by
  rw [parser]
  cases parse grammar source with
  | error fault => exact iff_of_false (fun h => nomatch h) fun ⟨_, ht, _⟩ => nomatch ht
  | ok t =>
    constructor
    · exact fun h => ⟨t, rfl, Except.ok.inj h⟩
    · rintro ⟨_, ht, hx⟩
      obtain rfl := Except.ok.inj ht
      exact congrArg Except.ok hx

/-- A PHP file passes iff its concrete tree has no error and its first method with the right name
consists of a throw and nothing else. -/
theorem verdict_eq_pass_iff_isIrreversible {grammar : Grammar} {path : Path} {source : String}
    {root : Cst} {name : String} (hroot : grammar source = some root)
    (hflags : root.FlagsConsistent) (hblocks : root.BodiesAreBlocks) (hname : name ≠ "") :
    (parser grammar path source).map (fun t => t.verdict name) = .ok .pass ↔
      root.IsIrreversible source.toList name := by
  rw [parser_map_eq_ok_iff, IsIrreversible, ← hasError_eq_false_iff hflags]
  simp only [parse_eq_ok_iff hroot, Tree.verdict_eq_pass_iff_method]
  constructor
  · rintro ⟨_, ⟨herror, rfl⟩, m, s, hm, hs, hthrow⟩
    obtain ⟨a, c, hfirst, rfl⟩ := (method?_eq_some_iff hblocks hname).mp hm
    obtain ⟨body, hbody, hstatement⟩ := nodesOfBody_eq_throw_iff.mp ⟨s, hs, hthrow⟩
    exact ⟨herror, a, c, body, hfirst, hbody, hstatement⟩
  · rintro ⟨herror, a, c, body, hfirst, hbody, hstatement⟩
    obtain ⟨s, hs, hthrow⟩ := nodesOfBody_eq_throw_iff.mpr ⟨body, hbody, hstatement⟩
    have hm := (method?_eq_some_iff hblocks hname).mpr ⟨a, c, hfirst, rfl⟩
    exact ⟨_, ⟨herror, rfl⟩, _, s, hm, hs, hthrow⟩

/-- The sample has a syntax tree, and it passes. -/
theorem sample_passes :
    ∃ tree, parse sampleGrammar sampleText = .ok tree ∧ tree.verdict "down" = .pass := by
  have hroot : sampleGrammar sampleText = some sample := if_pos rfl
  refine ⟨_, (parse_eq_ok_iff hroot).mpr ⟨rfl, rfl⟩, ?_⟩
  -- the traversal does not reduce, so its preorder is computed by recursion on the tree
  simp only [Tree.verdict, Tree.method?, Tree.methods, Tree.preorder_eq_flattenAll]
  rfl

set_option maxRecDepth 4000 in
/-- The method of the sample consists of a throw and nothing else. -/
theorem sample_isIrreversible :
    sample.FlagsConsistent ∧ sample.BodiesAreBlocks ∧
      sample.IsIrreversible sampleText.toList "down" := by
  have hroot : sampleGrammar sampleText = some sample := if_pos rfl
  have hpass : (parser sampleGrammar ⟨"m.php"⟩ sampleText).map (fun t => t.verdict "down") =
      .ok .pass :=
    parser_map_eq_ok_iff.mpr sample_passes
  exact ⟨by decide, by decide,
    (verdict_eq_pass_iff_isIrreversible hroot (by decide) (by decide) (by decide)).mp hpass⟩

end Php

end MigrationLint
