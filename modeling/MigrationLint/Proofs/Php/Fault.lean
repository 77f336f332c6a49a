import MigrationLint.Proofs.Php.Wellformed

/-!
# The fault that is reported

The search for the fault of a concrete tree does not enter trees that say that they have no error.
If no fault hides in such a tree, then the search ends at the first error or missing node in
preorder, as if it had looked at every node before it. A text is rejected for this node and at its
place.

* `Cst.firstFault?_eq_find?`: the search comes to the same as looking through all nodes in preorder;
* `rejects_exactly_faults`: when a text is rejected, and for which node.
-/

namespace MigrationLint

/-- A place comes before another one in a text: it is on an earlier line, or further to the left on
the same line. -/
def Position.Before (p q : Position) : Prop :=
  p.line < q.line ∨ p.line = q.line ∧ p.column < q.column

instance (p q : Position) : Decidable (p.Before q) :=
  inferInstanceAs (Decidable (_ ∨ _))

namespace Php

/-- The place where a node starts, as it is reported. -/
def Label.place (label : Label) : Position :=
  ⟨label.row + 1, label.column + 1⟩

theorem Fault.position_ofLabel (source : List Char) (label : Label) :
    (ofLabel source label).toParseError.position = some label.place := by
  rw [ofLabel]
  split
  · rfl
  · dsimp only
    split <;> rfl

namespace Cst

/-- No fault hides below a node that neither is one nor says that it has an error. -/
def HidesNoFault (root : Cst) : Prop :=
  ∀ c ∈ root.nodes, ¬c.label.IsFault → c.label.hasError = false → c.FaultFree

/-- Consistent flags do not hide faults. -/
theorem FlagsConsistent.hidesNoFault {root : Cst} (h : root.FlagsConsistent) :
    root.HidesNoFault := by
  intro c hc _ hflag d hd hfault
  have herror : c.label.hasError = true := (h c hc).mpr ⟨d, hd, hfault⟩
  rw [hflag] at herror
  nomatch herror

theorem HidesNoFault.child {c d : Cst} (h : c.HidesNoFault) (hd : d ∈ c.children) :
    d.HidesNoFault :=
  fun e he => h e (mem_nodes_of_mem_children hd he)

/-- The search goes through the trees of a forest one after the other. -/
theorem firstFaultIn?_eq_find? {cs : List Cst}
    (h : ∀ c ∈ cs, c.firstFault? = (c.nodes.find? fun d => d.label.IsFault).map Cst.label) :
    firstFaultIn? cs = ((nodesIn cs).find? fun d => d.label.IsFault).map Cst.label := by
  induction cs with
  | nil => rfl
  | cons c cs ih =>
    obtain ⟨hc, hcs⟩ := List.forall_mem_cons.mp h
    rw [firstFaultIn?, nodesIn, List.find?_append, hc, ih hcs]
    -- the other trees count only if there is no fault in the first one
    cases c.nodes.find? fun d => d.label.IsFault with
    | none => rfl
    | some d => rfl

/-- Unless a fault hides, the search finds the first one in preorder. -/
theorem firstFault?_eq_find? (c : Cst) (h : c.HidesNoFault) :
    c.firstFault? = (c.nodes.find? fun d => d.label.IsFault).map Cst.label := by
  induction c using induction_children with
  | step c ih =>
    obtain ⟨label, children⟩ := c
    have hbelow := firstFaultIn?_eq_find? fun d hd => ih d hd (h.child hd)
    rw [firstFault?, nodes]
    by_cases hfault : label.IsFault
    · rw [if_pos (by simpa [Label.IsFault] using hfault), List.find?_cons_of_pos (by simpa using hfault)]
      rfl
    · rw [if_neg (by simpa [Label.IsFault] using hfault), List.find?_cons_of_neg (by simpa using hfault)]
      cases hflag : label.hasError with
      | true => exact hbelow
      | false =>
        -- nothing is searched, and there is nothing to find
        have hfree := h _ (self_mem_nodes _) hfault hflag
        have hnone : ((nodesIn children).find? fun d => d.label.IsFault) = none := by
          rw [List.find?_eq_none]
          intro d hd
          have hmem : d ∈ nodes ⟨label, children⟩ := by
            rw [nodes]
            exact List.mem_cons_of_mem _ hd
          simpa using hfree d hmem
        rw [hnone]
        rfl

/-- Of the errors and missing nodes of a tree, the node is the first one in preorder. -/
structure FirstFault (root c : Cst) : Prop where
  /-- The node is an error or missing. -/
  isFault : c.label.IsFault
  /-- Of the nodes before it none is. -/
  first : ∃ before after, root.nodes = before ++ c :: after ∧ ∀ d ∈ before, ¬d.label.IsFault

/-- The nodes of a tree in preorder start further and further down in the text, or at the same
place. -/
def StartsInOrder (root : Cst) : Prop :=
  root.nodes.Pairwise fun c d => ¬d.label.place.Before c.label.place

instance (root : Cst) : Decidable root.StartsInOrder :=
  inferInstanceAs (Decidable (List.Pairwise _ _))

theorem find?_nodes_eq_some_iff {root c : Cst} :
    (root.nodes.find? fun d => d.label.IsFault) = some c ↔ root.FirstFault c := by
  rw [List.find?_eq_some_iff_append]
  constructor
  · rintro ⟨hc, before, after, hnodes, hbefore⟩
    exact ⟨of_decide_eq_true hc, before, after, hnodes, fun d hd => by simpa using hbefore d hd⟩
  · rintro ⟨hc, before, after, hnodes, hbefore⟩
    exact ⟨decide_eq_true hc, before, after, hnodes, fun d hd => by simpa using hbefore d hd⟩

/-- If nodes start in order, then no fault starts before the first one. -/
theorem FirstFault.not_before {root c d : Cst} (h : root.FirstFault c) (horder : root.StartsInOrder)
    (hd : d ∈ root.nodes) (hfault : d.label.IsFault) : ¬d.label.place.Before c.label.place := by
  obtain ⟨before, after, hnodes, hbefore⟩ := h.first
  rw [StartsInOrder, hnodes, List.pairwise_append, List.pairwise_cons] at horder
  rw [hnodes, List.mem_append, List.mem_cons] at hd
  rcases hd with hd | rfl | hd
  · exact absurd hfault (hbefore d hd)
  · -- nothing comes before itself
    rintro (hline | ⟨-, hcolumn⟩)
    · exact Nat.lt_irrefl _ hline
    · exact Nat.lt_irrefl _ hcolumn
  · exact horder.2.1.1 d hd

end Cst

open Cst

/-- A text is rejected iff a node of its concrete tree is an error or missing. What is reported is the
first such node in preorder, at the place where it starts. If nodes start in order, then no other one
starts before this place. -/
theorem rejects_exactly_faults {grammar : Grammar} {path : Path} {source : String} {root : Cst}
    (hroot : grammar source = some root) (hflags : root.FlagsConsistent) :
    ((∃ e, parser grammar path source = .error e) ↔ ∃ c ∈ root.nodes, c.label.IsFault) ∧
    ∀ e, parser grammar path source = .error e →
      ∃ c, root.FirstFault c ∧
        e = (Fault.ofLabel source.toList c.label).toParseError ∧
        e.position = some ⟨c.label.row + 1, c.label.column + 1⟩ ∧
        e ≠ Fault.unlocated.toParseError ∧
        (root.StartsInOrder → ∀ d ∈ root.nodes, d.label.IsFault →
          ¬d.label.place.Before ⟨c.label.row + 1, c.label.column + 1⟩) := by
  have hsearch := root.firstFault?_eq_find? hflags.hidesNoFault
  have htree : parse grammar source = treeOf source.toList root := by
    rw [parse, hroot]
  rw [parser, htree, treeOf]
  by_cases hfault : ∃ c ∈ root.nodes, c.label.IsFault
  · have hflag : root.label.hasError = true := (hflags root root.self_mem_nodes).mpr hfault
    obtain ⟨c, hc⟩ : ∃ c, (root.nodes.find? fun d => d.label.IsFault) = some c := by
      rw [← Option.isSome_iff_exists, List.find?_isSome]
      simpa using hfault
    have hfirst := find?_nodes_eq_some_iff.mp hc
    rw [if_pos hflag, hsearch, hc]
    refine ⟨iff_of_true ⟨_, rfl⟩ hfault, ?_⟩
    intro e he
    obtain rfl := Except.error.inj he
    have hposition := Fault.position_ofLabel source.toList c.label
    refine ⟨c, hfirst, rfl, hposition, ?_, ?_⟩
    · -- the fallback has no position
      intro hfallback
      rw [hfallback] at hposition
      cases hposition
    · intro horder d hd hdfault
      exact hfirst.not_before horder hd hdfault
  · have hflag : root.label.hasError = false :=
      (hasError_eq_false_iff hflags).mpr fun c hc hcfault => hfault ⟨c, hc, hcfault⟩
    rw [if_neg (by simp [hflag])]
    constructor
    · refine iff_of_false ?_ hfault
      rintro ⟨e, he⟩
      cases he
    · intro e he
      cases he

namespace Cst

/-- A text that is broken twice: a label lacks its colon, and what stands in its place belongs
nowhere. -/
def faultyText : String :=
  "<?php\n;\u2028$x"

/-- The concrete tree of the text. Its first fault lies below a node that is none, behind a statement
without errors. -/
def faulty : Cst :=
  ⟨⟨"program", true, false, false, true, none, 0, 12, 0, 0⟩, [
    ⟨⟨"php_tag", true, false, false, false, none, 0, 5, 0, 0⟩, []⟩,
    ⟨⟨"empty_statement", true, false, false, false, none, 6, 7, 1, 0⟩, [
      ⟨⟨";", false, false, false, false, none, 6, 7, 1, 0⟩, []⟩]⟩,
    ⟨⟨"named_label_statement", true, false, false, true, none, 7, 10, 1, 1⟩, [
      ⟨⟨"name", true, false, false, false, none, 7, 10, 1, 1⟩, []⟩,
      ⟨⟨":", false, false, true, true, none, 10, 10, 1, 4⟩, []⟩]⟩,
    ⟨⟨"ERROR", true, true, false, true, none, 10, 12, 1, 4⟩, [
      ⟨⟨"variable_name", true, false, false, false, none, 10, 12, 1, 4⟩, [
        ⟨⟨"$", false, false, false, false, none, 10, 11, 1, 4⟩, []⟩,
        ⟨⟨"name", true, false, false, false, none, 11, 12, 1, 5⟩, []⟩]⟩]⟩]⟩

/-- The missing colon is what is reported. -/
theorem faulty_rejected :
    faulty.FlagsConsistent ∧ faulty.StartsInOrder ∧
      ∃ c, faulty.FirstFault c ∧
        parser (fun _ => some faulty) ⟨"m.php"⟩ faultyText =
          .error ⟨"Syntax error, missing `:`", some ⟨2, 5⟩⟩ ∧
        c.label.place = ⟨2, 5⟩ ∧ ∀ d ∈ faulty.nodes, d.label.IsFault → ¬d.label.place.Before ⟨2, 5⟩ := by
  have hflags : faulty.FlagsConsistent := by decide
  have horder : faulty.StartsInOrder := by decide
  have herror : parser (fun _ => some faulty) ⟨"m.php"⟩ faultyText =
      .error ⟨"Syntax error, missing `:`", some ⟨2, 5⟩⟩ := rfl
  have hroot : (fun _ => some faulty : Grammar) faultyText = some faulty := rfl
  obtain ⟨c, hfirst, -, hposition, -, hbefore⟩ :=
    (rejects_exactly_faults hroot hflags).2 _ herror
  have hplace : c.label.place = ⟨2, 5⟩ := (Option.some.inj hposition).symm
  refine ⟨hflags, horder, c, hfirst, herror, hplace, ?_⟩
  rw [← hplace]
  exact hbefore horder

end Cst

end Php

end MigrationLint
