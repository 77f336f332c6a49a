import Mathlib.Logic.Relation
import MigrationLint.Check.Rule
import MigrationLint.Proofs.Php.Retained

/-!
# Edits that leave the syntax tree alone

Comments, stray semicolons and redundant blocks do not count. This file states as a relation between
concrete trees what it means to put one of them somewhere, and shows that any number of such edits
leaves the syntax tree as it is.

* `Cst.Edit`: one edit, at any place in a tree;
* `Cst.Edit.similar`: an edit changes nothing that the conversion looks at;
* `parse_eq_of_edits`: edits change neither the syntax tree nor the outcome for any method name.
-/

namespace MigrationLint.Php

namespace Cst

/-! ## Edits -/

/-- One edit of a concrete tree. Whatever is put in has no errors and no role, and an expression
statement, whose children are counted, only gets comments. -/
inductive Edit : Cst → Cst → Prop
  /-- A comment is put among the children of a node. -/
  | comment {label : Label} {before after : List Cst} {c : Cst}
      (hkind : c.label.kind = "comment") (hfield : c.label.field = none) (herror : c.ErrorFree) :
      Edit ⟨label, before ++ after⟩ ⟨label, before ++ c :: after⟩
  /-- An empty statement is put among the children of a node. -/
  | emptyStatement {label : Label} {before after : List Cst} {c : Cst}
      (hparent : label.kind ≠ "expression_statement") (hkind : c.label.kind = "empty_statement")
      (hfield : c.label.field = none) (herror : c.ErrorFree) :
      Edit ⟨label, before ++ after⟩ ⟨label, before ++ c :: after⟩
  /-- Neighbouring children without roles are put in a block, which may bring tokens of its own. -/
  | block {label blockLabel : Label} {before opening run closing after : List Cst}
      (hparent : label.kind ≠ "expression_statement")
      (hkind : blockLabel.kind = "compound_statement") (hnamed : blockLabel.named = true)
      (hfield : blockLabel.field = none)
      (herror : ¬blockLabel.IsFault ∧ blockLabel.hasError = false)
      (hopening : ∀ c ∈ opening, c.label.named = false ∧ c.ErrorFree)
      (hclosing : ∀ c ∈ closing, c.label.named = false ∧ c.ErrorFree)
      (hrun : ∀ c ∈ run, c.label.field = none) :
      Edit ⟨label, before ++ (run ++ after)⟩
        ⟨label, before ++ ⟨blockLabel, opening ++ (run ++ closing)⟩ :: after⟩
  /-- One of the children is edited. -/
  | inside {label : Label} {before after : List Cst} {c d : Cst} (hedit : Edit c d) :
      Edit ⟨label, before ++ c :: after⟩ ⟨label, before ++ d :: after⟩

/-- A tree has no errors iff its root and its children have none. -/
theorem errorFree_mk_iff {label : Label} {children : List Cst} :
    ErrorFree ⟨label, children⟩ ↔
      (¬label.IsFault ∧ label.hasError = false) ∧ ∀ c ∈ children, c.ErrorFree := by
  rw [ErrorFree, nodes_eq, List.forall_mem_cons]
  refine and_congr_right fun _ => ?_
  constructor
  · exact fun h c hc d hd => h d (mem_nodesIn_iff.mpr ⟨c, hc, hd⟩)
  · intro h d hd
    obtain ⟨c, hc, hd⟩ := mem_nodesIn_iff.mp hd
    exact h c hc d hd

/-- An edit puts no errors in. -/
theorem Edit.errorFree {c d : Cst} (hedit : Edit c d) (h : c.ErrorFree) : d.ErrorFree := by
  induction hedit with
  | comment _ _ herror | emptyStatement _ _ _ herror =>
    rw [errorFree_mk_iff, List.forall_mem_append] at h ⊢
    obtain ⟨hlabel, hbefore, hafter⟩ := h
    exact ⟨hlabel, hbefore, List.forall_mem_cons.mpr ⟨herror, hafter⟩⟩
  | block _ _ _ _ herror hopening hclosing _ =>
    rw [errorFree_mk_iff, List.forall_mem_append] at h ⊢
    obtain ⟨hlabel, hbefore, hrest⟩ := h
    obtain ⟨hrun, hafter⟩ := List.forall_mem_append.mp hrest
    have hblock := errorFree_mk_iff.mpr ⟨herror, List.forall_mem_append.mpr
      ⟨fun c hc => (hopening c hc).2, List.forall_mem_append.mpr
        ⟨hrun, fun c hc => (hclosing c hc).2⟩⟩⟩
    exact ⟨hlabel, hbefore, List.forall_mem_cons.mpr ⟨hblock, hafter⟩⟩
  | inside _ ih =>
    rw [errorFree_mk_iff, List.forall_mem_append, List.forall_mem_cons] at h ⊢
    obtain ⟨hlabel, hbefore, hchild, hafter⟩ := h
    exact ⟨hlabel, hbefore, ih hchild, hafter⟩

/-! ## What the conversion looks at -/

/-- Two forests agree in what they contribute, in the place of the name and in what is below the
body. -/
structure Alike (source : List Char) (cs ds : List Cst) : Prop where
  /-- They contribute the same nodes. -/
  nodes : nodesOfAll source ds = nodesOfAll source cs
  /-- The first trees with the role of a name have the same label. -/
  name : (withField? "name" ds).map (·.label) = (withField? "name" cs).map (·.label)
  /-- The first trees with the role of a body contribute the same nodes. -/
  body : (withField? "body" ds).map (fun b => nodesOfAll source b.children) =
    (withField? "body" cs).map fun b => nodesOfAll source b.children

/-- No tree has a role that no tree has. -/
theorem withField?_eq_none {field : String} {cs : List Cst} (h : ∀ c ∈ cs, c.label.field = none) :
    withField? field cs = none := by
  refine List.find?_eq_none.mpr fun c hc => ?_
  rw [h c hc]
  simp

theorem nodesOfAll_eq_nil {source : List Char} {cs : List Cst}
    (h : ∀ c ∈ cs, c.label.named = false) : nodesOfAll source cs = [] := by
  induction cs with
  | nil => rfl
  | cons c cs ih =>
    obtain ⟨hc, hcs⟩ := List.forall_mem_cons.mp h
    rw [nodesOfAll, ih hcs, nodesOf_of_not_named hc, List.nil_append]

namespace Alike

variable {source : List Char} {cs ds es : List Cst}

theorem refl (cs : List Cst) : Alike source cs cs :=
  ⟨rfl, rfl, rfl⟩

theorem trans (h : Alike source cs ds) (h' : Alike source ds es) : Alike source cs es :=
  ⟨h'.nodes.trans h.nodes, h'.name.trans h.name, h'.body.trans h.body⟩

/-- Forests that agree may be exchanged within a larger one. -/
theorem surround (h : Alike source cs ds) (before after : List Cst) :
    Alike source (before ++ (cs ++ after)) (before ++ (ds ++ after)) where
  nodes := by simp only [nodesOfAll_append, h.nodes]
  name := by
    have hname := h.name
    simp only [withField?, List.find?_append, Option.map_or] at hname ⊢
    rw [hname]
  body := by
    have hbody := h.body
    simp only [withField?, List.find?_append, Option.map_or] at hbody ⊢
    rw [hbody]

/-- A forest agrees with one that contributes the same nodes if neither has trees with roles. -/
theorem of_no_fields (hnodes : nodesOfAll source ds = nodesOfAll source cs)
    (hcs : ∀ c ∈ cs, c.label.field = none) (hds : ∀ d ∈ ds, d.label.field = none) :
    Alike source cs ds where
  nodes := hnodes
  name := by rw [withField?_eq_none hcs, withField?_eq_none hds]
  body := by rw [withField?_eq_none hcs, withField?_eq_none hds]

/-- Comments and empty statements without roles may be put anywhere. -/
theorem insert {c : Cst} (hkind : c.label.kind ∈ ignoredKinds) (hfield : c.label.field = none) :
    Alike source [] [c] := by
  refine of_no_fields ?_ (by simp) fun d hd => ?_
  · rw [nodesOfAll_singleton, nodesOf_of_ignored hkind, nodesOfAll]
  · rw [List.mem_singleton.mp hd, hfield]

end Alike

/-- Two trees agree in their labels, in what they stand for, and in their children. -/
structure Similar (source : List Char) (c d : Cst) : Prop where
  /-- They have the same label. -/
  label : d.label = c.label
  /-- They stand for the same. -/
  kind : kindOf d.label d.children = kindOf c.label c.children
  /-- Their children agree. -/
  children : Alike source c.children d.children

/-- Trees that agree contribute the same nodes. -/
theorem Similar.nodesOf_eq {source : List Char} {c d : Cst} (h : Similar source c d) :
    nodesOf source d = nodesOf source c := by
  have hname : nameOf? source d.children = nameOf? source c.children := by
    have htext : ∀ e : Cst, nameOf? source e.children =
        ((withField? "name" e.children).map (·.label)).bind fun l =>
          (Utf8.slice? source l.first l.last).map String.ofList := by
      intro e
      rw [nameOf?_eq_nameText?, nameText?, Option.bind_map]
      rfl
    rw [htext, htext, h.children.name]
  have hbody : nodesOfBody source d.children = nodesOfBody source c.children := by
    rw [nodesOfBody_eq, nodesOfBody_eq, h.children.body]
  have hnode : d.node source = c.node source := by
    rw [node, node, h.kind, hname, hbody, h.children.nodes, h.label]
  rw [Cst.nodesOf_eq, Cst.nodesOf_eq, hnode, h.children.nodes, h.label]

/-- Similar trees may be exchanged. -/
theorem Similar.alike {source : List Char} {c d : Cst} (h : Similar source c d) :
    Alike source [c] [d] where
  nodes := by rw [nodesOfAll_singleton, nodesOfAll_singleton, h.nodesOf_eq]
  name := by
    simp only [withField?, List.find?_singleton, h.label]
    split <;> simp [h.label]
  body := by
    simp only [withField?, List.find?_singleton, h.label]
    split <;> simp [h.children.nodes]

/-- What a node stands for depends on its children only if it is an expression statement, and then
only on the kinds of those that are named and no comments. -/
theorem kindOf_congr {label : Label} {cs ds : List Cst}
    (h : label.kind = "expression_statement" →
      (ds.filter fun d => d.label.named && d.label.kind != "comment").map (·.label.kind) =
        (cs.filter fun d => d.label.named && d.label.kind != "comment").map (·.label.kind)) :
    kindOf label ds = kindOf label cs := by
  rw [kindOf_eq_tagKind ⟨label, ds⟩, kindOf_eq_tagKind ⟨label, cs⟩]
  by_cases hlabel : label.kind = "expression_statement"
  · have hthrow : IsBareThrow ⟨label, ds⟩ ↔ IsBareThrow ⟨label, cs⟩ := by
      rw [IsBareThrow, IsBareThrow, h hlabel]
    simp only [tagKind, hlabel]
    exact ite_congr (propext hthrow) (fun _ => rfl) fun _ => rfl
  · unfold tagKind
    split
    all_goals simp_all

/-- An edit changes nothing that the conversion looks at. -/
theorem Edit.similar {source : List Char} {c d : Cst} (hedit : Edit c d) : Similar source c d := by
  induction hedit with
  | @comment label before after c hkind hfield _ =>
    -- comments are the only nodes that a bare throw may have beside it
    refine ⟨rfl, kindOf_congr fun _ => by simp [hkind], ?_⟩
    exact (Alike.insert (by simp [hkind, ignoredKinds]) hfield).surround before after
  | @emptyStatement label before after c hparent hkind hfield _ =>
    refine ⟨rfl, kindOf_congr fun hlabel => absurd hlabel hparent, ?_⟩
    exact (Alike.insert (by simp [hkind, ignoredKinds]) hfield).surround before after
  | @block label blockLabel before opening run closing after hparent hkind hnamed hfield _ hopening
      hclosing hrun =>
    have hblock : Alike source run [⟨blockLabel, opening ++ (run ++ closing)⟩] := by
      refine .of_no_fields ?_ hrun fun d hd => by rw [List.mem_singleton.mp hd, hfield]
      calc nodesOfAll source [⟨blockLabel, opening ++ (run ++ closing)⟩]
        _ = nodesOfAll source (opening ++ (run ++ closing)) := by
          rw [nodesOfAll_singleton, nodesOf_of_block hnamed hkind]
        _ = nodesOfAll source run := by
          rw [nodesOfAll_append, nodesOfAll_append,
            nodesOfAll_eq_nil fun c hc => (hopening c hc).1,
            nodesOfAll_eq_nil fun c hc => (hclosing c hc).1, List.nil_append, List.append_nil]
    refine ⟨rfl, kindOf_congr fun hlabel => absurd hlabel hparent, ?_⟩
    exact hblock.surround before after
  | @inside label before after c d _ ih =>
    refine ⟨rfl, kindOf_congr fun _ => ?_, ih.alike.surround before after⟩
    -- the edited child keeps its label, and the filter looks at nothing else
    simp only [List.filter_append, List.filter_cons, ih.label, List.map_append]
    split <;> simp only [List.map_cons, ih.label]

/-- Any number of edits changes nothing that the conversion looks at, and puts no errors in. -/
theorem similar_of_edits {source : List Char} {c d : Cst} (hedits : Relation.ReflTransGen Edit c d)
    (herror : c.ErrorFree) : Similar source c d ∧ d.ErrorFree := by
  induction hedits with
  | refl => exact ⟨⟨rfl, rfl, .refl _⟩, herror⟩
  | tail _ hedit ih =>
    -- the step needs nothing but the edit; that there are no errors is carried along
    obtain ⟨hsimilar, hbefore⟩ := ih
    have hstep : Similar source _ _ := hedit.similar
    exact ⟨⟨hstep.label.trans hsimilar.label, hstep.kind.trans hsimilar.kind,
      hsimilar.children.trans hstep.children⟩, hedit.errorFree hbefore⟩

end Cst

open Cst

/-- Comments, stray semicolons and redundant blocks change neither the syntax tree of a text without
errors nor the outcome for any method name. -/
theorem parse_eq_of_edits {grammar grammar' : Grammar} {source : String} {before after : Cst}
    (hbefore : grammar source = some before) (hafter : grammar' source = some after)
    (herror : before.ErrorFree) (hedits : Relation.ReflTransGen Edit before after) :
    ∃ tree, parse grammar source = .ok tree ∧ parse grammar' source = .ok tree ∧
      ∀ path name, (parser grammar' path source).map (fun t => t.verdict name) =
        (parser grammar path source).map fun t => t.verdict name := by
  obtain ⟨hsimilar, herror'⟩ : Similar source.toList before after ∧ after.ErrorFree :=
    similar_of_edits hedits herror
  have hparse := (parse_eq_ok_iff hbefore).mpr ⟨herror.hasError, rfl⟩
  have hparse' : parse grammar' source = .ok ⟨nodesOfAll source.toList before.children⟩ :=
    (parse_eq_ok_iff hafter).mpr ⟨herror'.hasError, by rw [hsimilar.children.nodes]⟩
  exact ⟨_, hparse, hparse', fun path name => by rw [parser, parser, hparse, hparse']⟩

set_option maxRecDepth 4000 in
/-- The sample has the syntax tree that its method would have without the block and the
semicolon. -/
theorem sample_parse_eq :
    (sampleWith [sampleThrow]).ErrorFree ∧
      Relation.ReflTransGen Edit (sampleWith [sampleThrow]) sample ∧
      ∃ tree, parse (fun _ => some (sampleWith [sampleThrow])) sampleText = .ok tree ∧
        parse sampleGrammar sampleText = .ok tree := by
  have herror : (sampleWith [sampleThrow]).ErrorFree := by decide
  -- an edit of the body is an edit of the tree, four levels further down
  have hlift : ∀ {ss ss' : List Cst}, Edit (sampleBody ss) (sampleBody ss') →
      Edit (sampleWith ss) (sampleWith ss') := fun hedit =>
    @Edit.inside _ [_] [] _ _ <| @Edit.inside _ [_, _] [] _ _ <| @Edit.inside _ [_] [_] _ _ <|
      @Edit.inside _ [_, _, _] [] _ _ hedit
  have hblock : Edit (sampleBody [sampleThrow]) (sampleBody [sampleBlock]) :=
    @Edit.block _ _ [_] [_] [_] [_] [_] (by decide) rfl rfl rfl (by decide) (by decide) (by decide)
      (by decide)
  have hsemicolon : Edit (sampleBody [sampleBlock]) (sampleBody [sampleBlock, sampleSemicolon]) :=
    @Edit.emptyStatement _ [_, _] [_] _ (by decide) rfl rfl (by decide)
  have hedits : Relation.ReflTransGen Edit (sampleWith [sampleThrow]) sample :=
    .tail (.single (hlift hblock)) (hlift hsemicolon)
  have hafter : sampleGrammar sampleText = some sample := if_pos rfl
  obtain ⟨tree, hparse, hparse', -⟩ := @parse_eq_of_edits (fun _ => some (sampleWith [sampleThrow]))
    sampleGrammar sampleText _ _ rfl hafter herror hedits
  exact ⟨herror, hedits, tree, hparse, hparse'⟩

end MigrationLint.Php
