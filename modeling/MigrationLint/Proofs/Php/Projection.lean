import MigrationLint.Proofs.Php.Retained

/-!
# The syntax tree as a projection of the concrete tree

The conversion walks a concrete tree and collects nodes as it goes, with the contents of blocks put
in place. This file shows that nothing is lost, doubled or moved on the way.

* `Corresponds`: a forest of the syntax tree holds the nodes of given concrete trees in the same
  order, and one of them lies below another iff this is so in the concrete tree;
* `corresponds_retained`: the syntax tree corresponds to the retained nodes;
* `parse_isProjection`: the syntax tree holds exactly the retained nodes, in preorder, each with its
  tag and below its nearest retained ancestor.
-/

namespace MigrationLint.Php

/-! ## Corresponding forests -/

open Cst

/-- A forest of the syntax tree, whose first node has index `k`, holds the nodes that concrete trees
leave, in the same order, and one of them lies at or below another iff this is so in the concrete
tree. -/
structure Corresponds (source : List Char) (k : Nat) (ns : List Node)
    (places : List (Address × Cst)) : Prop where
  /-- The nodes are the same, in preorder. -/
  nodes : Node.flattenAll ns = places.map fun p => p.2.node source
  /-- The ancestors are the same. -/
  ancestors : ∀ x ∈ (Node.placesFrom k ns).zip places, ∀ y ∈ (Node.placesFrom k ns).zip places,
    x.1.1 <+: y.1.1 ↔ x.2.1 <+: y.2.1

namespace Corresponds

variable {source : List Char} {k : Nat} {ns ms : List Node} {ps qs : List (Address × Cst)}

theorem length_eq (h : Corresponds source k ns ps) : (Node.placesFrom k ns).length = ps.length := by
  rw [← List.length_map (f := Prod.snd), Node.map_snd_placesFrom, h.nodes, List.length_map]

theorem nil : Corresponds source k [] [] where
  nodes := rfl
  ancestors := by simp [Node.placesFrom]

/-- Forests that lie apart correspond part by part. -/
theorem append (h : Corresponds source k ns ps) (h' : Corresponds source (k + ns.length) ms qs)
    (hapart : ∀ p ∈ ps, ∀ q ∈ qs, ¬p.1 <+: q.1 ∧ ¬q.1 <+: p.1) :
    Corresponds source k (ns ++ ms) (ps ++ qs) where
  nodes := by rw [Node.flattenAll_append, h.nodes, h'.nodes, List.map_append]
  ancestors := by
    -- a node of the first forest and one of the second start at different top-level nodes
    have hcross : ∀ x ∈ (Node.placesFrom k ns).zip ps,
        ∀ y ∈ (Node.placesFrom (k + ns.length) ms).zip qs,
          (¬x.1.1 <+: y.1.1 ∧ ¬y.1.1 <+: x.1.1) ∧ ¬x.2.1 <+: y.2.1 ∧ ¬y.2.1 <+: x.2.1 := by
      rintro ⟨⟨a, n⟩, p⟩ hx ⟨⟨b, m⟩, q⟩ hy
      obtain ⟨hx₁, hx₂⟩ := List.of_mem_zip hx
      obtain ⟨hy₁, hy₂⟩ := List.of_mem_zip hy
      obtain ⟨i, a', _, rfl, hi, -⟩ := Node.mem_placesFrom_iff.mp hx₁
      obtain ⟨j, b', _, rfl, -, -⟩ := Node.mem_placesFrom_iff.mp hy₁
      have hlt : i < ns.length := (List.getElem?_eq_some_iff.mp hi).1
      refine ⟨⟨?_, ?_⟩, hapart p hx₂ q hy₂⟩
      all_goals
        intro hprefix
        have := (List.cons_prefix_cons.mp hprefix).1
        omega
    rw [Node.placesFrom_append, List.zip_append h.length_eq]
    intro x hx y hy
    rcases List.mem_append.mp hx with hx | hx <;> rcases List.mem_append.mp hy with hy | hy
    · exact h.ancestors x hx y hy
    · obtain ⟨⟨hxy, -⟩, hxy', -⟩ := hcross x hx y hy
      exact iff_of_false hxy hxy'
    · obtain ⟨⟨-, hyx⟩, -, hyx'⟩ := hcross y hy x hx
      exact iff_of_false hyx hyx'
    · exact h'.ancestors x hx y hy

/-- The concrete trees may lie one level down, below the same child. -/
theorem under (h : Corresponds source k ns ps) (i : Nat) :
    Corresponds source k ns (MigrationLint.under i ps) where
  nodes := by rw [h.nodes, MigrationLint.under, List.map_map]; rfl
  ancestors := by
    rw [MigrationLint.under, List.zip_map_right]
    intro x hx y hy
    obtain ⟨x', hx', rfl⟩ := List.mem_map.mp hx
    obtain ⟨y', hy', rfl⟩ := List.mem_map.mp hy
    simpa using h.ancestors x' hx' y' hy'

/-- The node of a concrete tree stands above what corresponds to its children. -/
theorem single {c : Cst} (h : Corresponds source 0 (c.node source).children ps)
    (hbelow : ∀ p ∈ ps, p.1 ≠ []) : Corresponds source k [c.node source] (([], c) :: ps) where
  nodes := by
    rw [Node.flattenAll, Node.flattenAll, Node.flatten_eq, h.nodes, List.append_nil, List.map_cons]
  ancestors := by
    have hplaces : Node.placesFrom k [c.node source] =
        ([k], c.node source) ::
          MigrationLint.under k (Node.placesFrom 0 (c.node source).children) := by
      rw [Node.placesFrom, Node.placesFrom, Node.places_eq, List.append_nil]
      rfl
    rw [hplaces, List.zip_cons_cons, MigrationLint.under, List.zip_map_left]
    -- the node is above all others, and no other is above it
    intro x hx y hy
    rcases List.mem_cons.mp hx with rfl | hx <;> rcases List.mem_cons.mp hy with rfl | hy
    · simp
    · obtain ⟨y', -, rfl⟩ := List.mem_map.mp hy
      simp
    · obtain ⟨x', hx', rfl⟩ := List.mem_map.mp hx
      obtain ⟨hx₁, hx₂⟩ := List.of_mem_zip hx'
      obtain ⟨i, b, _, hi, -⟩ := Node.mem_placesFrom_iff.mp hx₁
      simpa [hi] using hbelow _ hx₂
    · obtain ⟨x', hx', rfl⟩ := List.mem_map.mp hx
      obtain ⟨y', hy', rfl⟩ := List.mem_map.mp hy
      simpa using h.ancestors x' hx' y' hy'

end Corresponds

section Conversion

variable {source : List Char}

/-- What a forest contributes corresponds to what is kept of it, if this holds of its trees and all
of them may be entered. -/
theorem corresponds_nodesOfAll {isOpen : Nat → Bool} (hopen : ∀ i, isOpen i = true)
    {cs : List Cst} (hcs : ∀ c ∈ cs, c.label.named = true → ∀ k,
      Corresponds source k (nodesOf source c) (onlyKept (c.reached Opens))) (i k : Nat) :
    Corresponds source k (nodesOfAll source cs) (onlyKept (reachedFrom Opens isOpen i cs)) := by
  induction cs generalizing i k with
  | nil => exact .nil
  | cons c cs ih =>
    have hrest := fun k => ih (fun d hd => hcs d (List.mem_cons_of_mem c hd)) (i + 1) k
    rw [nodesOfAll, reachedFrom, onlyKept_append, hopen, Bool.true_and]
    by_cases hnamed : c.label.named = true
    · rw [if_pos hnamed, onlyKept_under]
      have hfirst := hcs c List.mem_cons_self hnamed k
      refine (hfirst.under i).append (hrest _) ?_
      -- concrete trees below different children lie apart
      rintro ⟨a, d⟩ hp ⟨b, e⟩ hq
      obtain ⟨a', rfl, -⟩ := mem_under_iff.mp hp
      obtain ⟨j, b', _, rfl, -⟩ := mem_reachedFrom_iff.mp (mem_of_mem_onlyKept hq)
      simp only [List.cons_prefix_cons]
      omega
    · rw [if_neg hnamed, nodesOf_of_not_named (Bool.eq_false_iff.mpr hnamed)]
      exact hrest k

/-- What the body in a forest contributes corresponds to what is kept of the forest, if this holds
of its trees, bodies are blocks, and only the first body may be entered. -/
theorem corresponds_nodesOfBody {isOpen : Nat → Bool} {cs : List Cst} {i : Nat}
    (hopen : ∀ j, isOpen (i + j) = true ↔
      (cs.findIdx? fun d => d.label.field == some "body") = some j)
    (hbodies : ∀ b ∈ cs, b.label.field = some "body" →
      b.label.named = true ∧ b.label.kind = blockKind)
    (hcs : ∀ c ∈ cs, c.label.named = true → ∀ k,
      Corresponds source k (nodesOf source c) (onlyKept (c.reached Opens))) :
    Corresponds source 0 (nodesOfBody source cs) (onlyKept (reachedFrom Opens isOpen i cs)) := by
  induction cs generalizing i with
  | nil => exact .nil
  | cons c cs ih =>
    rw [nodesOfBody_cons, reachedFrom, onlyKept_append]
    by_cases hbody : c.label.field = some "body"
    · -- this is the first body: it is entered, and nothing after it is
      obtain ⟨hnamed, hblock⟩ := hbodies c List.mem_cons_self hbody
      have hfirst : isOpen i = true := (hopen 0).mpr (by simp [List.findIdx?_cons, hbody])
      have hrest : ∀ j, isOpen (i + 1 + j) = false := by
        intro j
        rw [Nat.add_assoc, Nat.add_comm 1 j, ← Bool.not_eq_true, hopen]
        simp [List.findIdx?_cons, hbody]
      have hcontents := hcs c List.mem_cons_self hnamed 0
      rw [nodesOf_of_block hnamed hblock] at hcontents
      rw [if_pos hbody, hfirst, hnamed, Bool.and_self, if_pos rfl, reachedFrom_eq_nil hrest,
        onlyKept_under]
      simpa [onlyKept] using hcontents.under i
    · -- this is no body: it is not entered, and the first body is among the rest
      have hfirst : isOpen i = false := by
        rw [← Bool.not_eq_true, ← Nat.add_zero i, hopen]
        simp [List.findIdx?_cons, hbody]
      rw [if_neg hbody, hfirst, Bool.false_and, if_neg Bool.false_ne_true]
      refine ih (fun j => ?_) (fun b hb => hbodies b (List.mem_cons_of_mem c hb))
        fun d hd => hcs d (List.mem_cons_of_mem c hd)
      rw [Nat.add_assoc, hopen, Nat.add_comm 1 j]
      simp [List.findIdx?_cons, hbody]

/-- What a named tree contributes corresponds to what is kept of it. -/
theorem corresponds_nodesOf {c : Cst} (hblocks : c.BodiesAreBlocks) (hnamed : c.label.named = true)
    (k : Nat) : Corresponds source k (nodesOf source c) (onlyKept (c.reached Opens)) := by
  induction c using induction_children generalizing k with
  | step c ih =>
    have hchildren : ∀ d ∈ c.children, d.label.named = true → ∀ k,
        Corresponds source k (nodesOf source d) (onlyKept (d.reached Opens)) :=
      fun d hd hd' k => ih d hd (hblocks.child hd) hd' k
    rw [reached_eq]
    by_cases hignored : c.label.kind ∈ ignoredKinds
    · rw [nodesOf_of_ignored hignored, onlyKept_cons_of_not_kept (by simp [isKept_iff, hignored]),
        reachedFrom_eq_nil (by simp [opens_iff, hignored])]
      exact .nil
    by_cases hblock : c.label.kind = blockKind
    · rw [nodesOf_of_block hnamed hblock, onlyKept_cons_of_not_kept (by simp [isKept_iff, hblock])]
      exact corresponds_nodesOfAll
        (by simp [opens_iff, hignored, not_isRoutine_of_block hblock]) hchildren 0 k
    have hkept : c.IsKept := isKept_iff.mpr ⟨hignored, hblock⟩
    rw [nodesOf_of_isKept hnamed hkept, onlyKept_cons_of_kept hkept]
    refine .single ?_ fun ⟨a, d⟩ hmem => ?_
    · by_cases hroutine : c.IsRoutine
      · rw [node, if_pos ((keepsBody_kindOf c).mpr hroutine)]
        refine corresponds_nodesOfBody (fun j => ?_) (hblocks c c.self_mem_nodes hroutine) hchildren
        simp [opens_iff, hignored, hroutine, bodyIndex?]
      · rw [node, if_neg (mt (keepsBody_kindOf c).mp hroutine)]
        exact corresponds_nodesOfAll (by simp [opens_iff, hignored, hroutine]) hchildren 0 0
    · obtain ⟨j, b, _, rfl, -⟩ := mem_reachedFrom_iff.mp (mem_of_mem_onlyKept hmem)
      exact List.cons_ne_nil _ _

/-- The syntax tree corresponds to the retained nodes of the concrete tree. -/
theorem corresponds_retained {root : Cst} (hblocks : root.BodiesAreBlocks) :
    Corresponds source 0 (nodesOfAll source root.children) root.retained :=
  corresponds_nodesOfAll (fun _ => rfl)
    (fun _ hc hnamed k => corresponds_nodesOf (hblocks.child hc) hnamed k) 0 0

end Conversion

/-! ## The syntax tree -/

/-- A node of a syntax tree that stands for a retained node has the parent that it should have: none
if no retained node lies above, else the node that stands for the nearest one. The pairs are all
nodes of the syntax tree, each with its address and with the retained node that it stands for. -/
def HasProperParent (root : Cst) (pairs : List ((Address × Node) × (Address × Cst)))
    (pair : (Address × Node) × (Address × Cst)) : Prop :=
  (pair.1.1.length = 1 ∧ ∀ b c, root.Retained b c → b <+: pair.2.1 → b = pair.2.1) ∨
    ∃ parent ∈ pairs, parent.1.1 = pair.1.1.dropLast ∧ root.NearestRetained pair.2.1 parent.2.1

/-- A syntax tree is the projection of a concrete tree to its retained nodes. -/
structure IsProjection (source : List Char) (root : Cst) (tree : Tree)
    (places : List (Address × Cst)) : Prop where
  /-- The places are the retained nodes in preorder. -/
  enumerates : Enumerates root.Retained places
  /-- The nodes of the syntax tree are the retained ones, each with its tag. -/
  tags : tree.preorder.map Node.tag = places.map fun p => p.2.tag source
  /-- Each node of the syntax tree has the right parent. -/
  parents : ∀ pair ∈ tree.places.zip places, HasProperParent root (tree.places.zip places) pair

namespace Corresponds

variable {source : List Char} {k : Nat} {ns : List Node} {ps : List (Address × Cst)}

/-- Every listed node stands for a concrete tree. -/
theorem exists_tree (h : Corresponds source k ns ps) {p : Address × Node}
    (hp : p ∈ Node.placesFrom k ns) : ∃ q, (p, q) ∈ (Node.placesFrom k ns).zip ps := by
  rw [← List.map_fst_zip (Nat.le_of_eq h.length_eq)] at hp
  obtain ⟨⟨_, q⟩, hq, rfl⟩ := List.mem_map.mp hp
  exact ⟨q, hq⟩

/-- Every concrete tree has a listed node that stands for it. -/
theorem exists_node (h : Corresponds source k ns ps) {q : Address × Cst} (hq : q ∈ ps) :
    ∃ p, (p, q) ∈ (Node.placesFrom k ns).zip ps := by
  rw [← List.map_snd_zip (Nat.le_of_eq h.length_eq.symm)] at hq
  obtain ⟨⟨p, _⟩, hp, rfl⟩ := List.mem_map.mp hq
  exact ⟨p, hp⟩

/-- Concrete trees are at the same address if the nodes that stand for them are. -/
theorem address_eq (h : Corresponds source k ns ps) {x y : (Address × Node) × (Address × Cst)}
    (hx : x ∈ (Node.placesFrom k ns).zip ps) (hy : y ∈ (Node.placesFrom k ns).zip ps)
    (heq : x.1.1 = y.1.1) : x.2.1 = y.2.1 := by
  have hxy : x.2.1 <+: y.2.1 := (h.ancestors x hx y hy).mp (heq ▸ List.prefix_rfl)
  have hyx : y.2.1 <+: x.2.1 := (h.ancestors y hy x hx).mp (heq ▸ List.prefix_rfl)
  exact hxy.eq_of_length_le hyx.length_le

/-- Where nodes correspond, parents are the nearest retained ancestors. -/
theorem hasProperParent {root : Cst} {tree : Tree}
    (h : Corresponds source 0 tree.nodes root.retained)
    {pair : (Address × Node) × (Address × Cst)} (hpair : pair ∈ tree.places.zip root.retained) :
    HasProperParent root (tree.places.zip root.retained) pair := by
  obtain ⟨⟨t, n⟩, a, c⟩ := pair
  have hretained : ∀ b d, root.Retained b d → ∃ p, (p, b, d) ∈ tree.places.zip root.retained :=
    fun b d hb => h.exists_node ((root.retained_enumerates.mem_iff b d).mpr hb)
  have hlisted : (t, n) ∈ tree.places := (List.of_mem_zip hpair).1
  by_cases htop : t.dropLast = []
  · -- at the top level a retained node above would stand for the same node
    left
    obtain ⟨i, t', _, rfl, -⟩ := Node.mem_placesFrom_iff.mp hlisted
    have htail : t' = [] := by simpa using congrArg List.length htop
    subst htail
    refine ⟨rfl, fun b d hb habove => ?_⟩
    obtain ⟨⟨u, m⟩, hu⟩ := hretained b d hb
    have hpath : u <+: [0 + i] := (h.ancestors _ hu _ hpair).mpr habove
    obtain ⟨j, u', _, rfl, -⟩ := Node.mem_placesFrom_iff.mp (List.of_mem_zip hu).1
    exact h.address_eq hu hpair (hpath.eq_of_length_le (by simp))
  · -- below the top level the parent is listed, and it stands for the nearest retained ancestor
    right
    have hne : t ≠ [] := fun hnil => htop (by rw [hnil, List.dropLast_nil])
    have hpos : 0 < t.length := List.length_pos_iff.mpr hne
    obtain ⟨m, hm⟩ := Tree.dropLast_mem_places hlisted htop
    obtain ⟨⟨b, d⟩, hb⟩ := h.exists_tree hm
    have habove : b <+: a := (h.ancestors _ hb _ hpair).mp (List.dropLast_prefix t)
    refine ⟨_, hb, rfl, ⟨d, ?_⟩, ⟨habove, ?_⟩, fun b' d' hb' habove' hother => ?_⟩
    · exact (root.retained_enumerates.mem_iff b d).mp (List.of_mem_zip hb).2
    · rintro rfl
      have hback : t <+: t.dropLast := (h.ancestors _ hpair _ hb).mpr List.prefix_rfl
      have hle := hback.length_le
      rw [List.length_dropLast] at hle
      omega
    · -- an ancestor in the syntax tree that is not the node itself is at or above its parent
      obtain ⟨⟨u, k⟩, hu⟩ := hretained b' d' hb'
      have hpath : u <+: t := (h.ancestors _ hu _ hpair).mpr habove'
      have hproper : u.length < t.length :=
        Nat.lt_of_le_of_ne hpath.length_le fun hlength =>
          hother (h.address_eq hu hpair (hpath.eq_of_length hlength))
      refine (h.ancestors _ hu _ hb).mp
        (List.prefix_of_prefix_length_le hpath (List.dropLast_prefix t) ?_)
      show u.length ≤ t.dropLast.length
      rw [List.length_dropLast]
      omega

end Corresponds

/-- The syntax tree of a text without errors holds exactly the retained nodes of its concrete tree,
in preorder, each with its tag and below its nearest retained ancestor. -/
theorem parse_isProjection {grammar : Grammar} {source : String} {root : Cst}
    (hroot : grammar source = some root) (herror : root.ErrorFree)
    (hblocks : root.BodiesAreBlocks) :
    ∃ tree places, parse grammar source = .ok tree ∧
      IsProjection source.toList root tree places := by
  let tree : Tree := ⟨nodesOfAll source.toList root.children⟩
  have h : Corresponds source.toList 0 tree.nodes root.retained := corresponds_retained hblocks
  refine ⟨tree, root.retained, (parse_eq_ok_iff hroot).mpr ⟨herror.hasError, rfl⟩,
    root.retained_enumerates, ?_, fun pair hpair => h.hasProperParent hpair⟩
  rw [Tree.preorder_eq_flattenAll, h.nodes, List.map_map]
  exact List.map_congr_left fun p _ => tag_node source.toList p.2

set_option maxRecDepth 4000 in
/-- The syntax tree of the sample is the projection of its concrete tree. -/
theorem sample_isProjection :
    sample.ErrorFree ∧ sample.BodiesAreBlocks ∧
      ∃ tree places, parse sampleGrammar sampleText = .ok tree ∧
        IsProjection sampleText.toList sample tree places :=
  ⟨by decide, by decide, parse_isProjection (if_pos rfl) (by decide) (by decide)⟩

end MigrationLint.Php
