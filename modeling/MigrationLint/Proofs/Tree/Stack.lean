import MigrationLint.Proofs.Tree.Preorder
import MigrationLint.Tree.Stack

/-!
# Stacks in arrays visit preorder

A stack in an array visits the same nodes as a `Traversal`, one after the other. At any time it has
still to visit the preorder of the nodes on the stack, from the top down, and each visit takes the
first of these away. So the visits come to an end after as many of them as there are nodes, although
a visit can make the stack higher.

* `NodeStack.pending_next`: what a visit takes away from what is still to be visited;
* `NodeStack.pending_after`: what any number of visits take away;
* `stack_visits_preorder`: trees and nodes are visited in preorder, each occurrence of a node once.
-/

namespace MigrationLint

namespace Node

theorem flattenAll_eq_flatMap (ns : List Node) : flattenAll ns = ns.flatMap flatten := by
  induction ns with
  | nil => rfl
  | cons n ns ih => rw [flattenAll, ih, List.flatMap_cons]

mutual

/-- The preorder of a node has as many nodes as the node and the trees below it. -/
theorem length_flatten : ∀ n : Node, n.flatten.length = n.size
  | ⟨kind, name, line, children⟩ => by
    rw [flatten, List.length_cons, length_flattenAll children, size, Nat.add_comm]

theorem length_flattenAll : ∀ ns : List Node, (flattenAll ns).length = sizeAll ns
  | [] => rfl
  | n :: ns => by
    rw [flattenAll, List.length_append, length_flatten n, length_flattenAll ns, sizeAll]

end

mutual

/-- The places of a tree are listed in preorder of their addresses. -/
theorem pairwise_places : ∀ n : Node, n.places.Pairwise fun x y => Address.Before x.1 y.1
  | ⟨kind, name, line, children⟩ => by
    rw [places, List.pairwise_cons]
    refine ⟨fun x hx => ?_, pairwise_placesFrom 0 children⟩
    obtain ⟨_, _, _, haddress, -, -⟩ := mem_placesFrom_iff.mp hx
    rw [haddress]
    exact Address.nil_before_cons _ _

theorem pairwise_placesFrom (i : Nat) :
    ∀ ns : List Node, (placesFrom i ns).Pairwise fun x y => Address.Before x.1 y.1
  | [] => .nil
  | n :: ns => by
    rw [placesFrom, List.pairwise_append]
    refine ⟨pairwise_before_under (pairwise_places n), pairwise_placesFrom (i + 1) ns, ?_⟩
    -- the addresses of the first tree start with a smaller index
    intro x hx y hy
    obtain ⟨_, hx, -⟩ := mem_under_iff.mp hx
    obtain ⟨j, _, _, hy, -, -⟩ := mem_placesFrom_iff.mp hy
    rw [hx, hy]
    exact Address.cons_before_cons_iff.mpr (.inl (by omega))

end

end Node

/-- The node at an address in a tree. The first index is that of a node at the top level. -/
def Tree.at? (t : Tree) : Address → Option Node
  | [] => none
  | i :: a => t.nodes[i]?.bind fun n => n.at? a

/-- The places of a tree are what its addresses lead to. -/
theorem Tree.mem_places_iff {t : Tree} {a : Address} {m : Node} :
    (a, m) ∈ t.places ↔ t.at? a = some m := by
  rw [places, Node.mem_placesFrom_iff]
  cases a with
  | nil => simp [at?]
  | cons i b =>
    simp only [at?, Option.bind_eq_some_iff, Nat.zero_add, List.cons.injEq]
    constructor
    · rintro ⟨_, _, n, ⟨rfl, rfl⟩, hn, hat⟩
      exact ⟨n, hn, hat⟩
    · rintro ⟨n, hn, hat⟩
      exact ⟨i, b, n, ⟨rfl, rfl⟩, hn, hat⟩

/-- A list has what lies at addresses, once for each address, and in preorder of the addresses. -/
structure IsCensus (at? : Address → Option Node) (places : List (Address × Node)) : Prop where
  /-- The list is in preorder. -/
  sorted : places.Pairwise fun x y => Address.Before x.1 y.1
  /-- No address is listed twice. -/
  nodup : (places.map Prod.fst).Nodup
  /-- What lies at an address is listed, and nothing else. -/
  mem_iff : ∀ a m, (a, m) ∈ places ↔ at? a = some m

/-- Sorted places that are what addresses lead to are a census. -/
theorem IsCensus.of_sorted {at? : Address → Option Node} {places : List (Address × Node)}
    (sorted : places.Pairwise fun x y => Address.Before x.1 y.1)
    (mem_iff : ∀ a m, (a, m) ∈ places ↔ at? a = some m) : IsCensus at? places := by
  refine ⟨sorted, ?_, mem_iff⟩
  rw [List.Nodup, List.pairwise_map]
  refine sorted.imp fun hbefore heq => ?_
  rw [heq] at hbefore
  exact Address.not_before_self _ hbefore

theorem Node.isCensus_places (n : Node) : IsCensus n.at? n.places :=
  .of_sorted n.pairwise_places fun _ _ => mem_places_iff

theorem Tree.isCensus_places (t : Tree) : IsCensus t.at? t.places :=
  .of_sorted (Node.pairwise_placesFrom 0 t.nodes) fun _ _ => mem_places_iff

namespace NodeStack

/-- The nodes on the stack from the top down. -/
def fromTop (s : NodeStack) : List Node :=
  s.nodes.toList.reverse

/-- What is still to be visited: the preorder of each node on the stack, from the top down. -/
def pending (s : NodeStack) : List Node :=
  s.fromTop.flatMap Node.flatten

/-- Nothing is next on an empty stack. -/
theorem next_of_fromTop_eq_nil {s : NodeStack} (h : s.fromTop = []) : s.next = (none, s) := by
  have hnodes : s.nodes = #[] := by simpa [fromTop] using h
  rw [next, hnodes]
  rfl

/-- Children are put on the stack in reverse, so that they come to lie on it in order. -/
theorem next_of_fromTop_eq_cons {s : NodeStack} {n : Node} {rest : List Node}
    (h : s.fromTop = n :: rest) :
    s.next.1 = some n ∧ s.next.2.fromTop = n.children ++ rest := by
  have hnodes : s.nodes.toList = rest.reverse ++ [n] := by
    rw [← List.reverse_reverse s.nodes.toList, ← fromTop, h, List.reverse_cons]
  have hback : s.nodes.back? = some n := by
    rw [← Array.getLast?_toList, hnodes, List.getLast?_concat]
  rw [next, hback]
  refine ⟨rfl, ?_⟩
  show (s.nodes.pop ++ n.children.reverse).toList.reverse = n.children ++ rest
  rw [Array.toList_appendList, Array.toList_pop, hnodes, List.dropLast_concat,
    ← List.reverse_append, List.reverse_reverse]

/-- A visit is a step of the traversal whose stack has the same nodes from the top down. -/
theorem next?_fromTop (s : NodeStack) :
    Traversal.next? ⟨s.fromTop⟩ = s.next.1.map fun n => (n, ⟨s.next.2.fromTop⟩) := by
  cases h : s.fromTop with
  | nil =>
    rw [next_of_fromTop_eq_nil h]
    rfl
  | cons n rest =>
    obtain ⟨hvisited, hrest⟩ := next_of_fromTop_eq_cons h
    rw [hvisited, hrest]
    rfl

/-- A visit takes the first node away from what is still to be visited. -/
theorem pending_next (s : NodeStack) :
    s.next.1 = s.pending.head? ∧ s.next.2.pending = s.pending.tail := by
  cases h : s.fromTop with
  | nil =>
    have hpending : s.pending = [] := by rw [pending, h, List.flatMap_nil]
    rw [next_of_fromTop_eq_nil h, hpending]
    exact ⟨rfl, rfl⟩
  | cons n rest =>
    obtain ⟨hvisited, hrest⟩ := next_of_fromTop_eq_cons h
    have hpending : s.pending = n :: s.next.2.pending := by
      rw [pending, pending, h, hrest, List.flatMap_cons, List.flatMap_append, Node.flatten_eq,
        Node.flattenAll_eq_flatMap, List.cons_append]
    rw [hpending]
    exact ⟨hvisited, rfl⟩

/-- A number of visits take as many nodes away from what is still to be visited. -/
theorem pending_after (s : NodeStack) (k : Nat) : (s.after k).pending = s.pending.drop k := by
  induction k with
  | zero => rfl
  | succ k ih => rw [after, (pending_next _).2, ih, List.tail_drop]

/-- The stack visits nodes in order and nothing else, and at any time it has the rest of them still to
visit. -/
structure Visits (s : NodeStack) (ns : List Node) : Prop where
  /-- Each visit is that of the next node. When there is none left nothing is visited. -/
  visited : ∀ k, (s.after k).next.1 = ns[k]?
  /-- What is left is the preorder of what is on the stack, from the top down. -/
  left : ∀ k, ns.drop k = (s.after k).fromTop.flatMap Node.flatten

/-- A stack visits what is pending. -/
theorem visits_pending (s : NodeStack) : s.Visits s.pending where
  visited k := by rw [(pending_next _).1, pending_after, List.head?_drop]
  left k := (s.pending_after k).symm

/-- For a node, all of its nodes are pending. -/
theorem pending_ofNode (n : Node) : (ofNode n).pending = n.flatten := by
  simp [pending, fromTop, ofNode]

/-- For a tree, all of its nodes are pending. -/
theorem pending_ofTree (t : Tree) : (ofTree t).pending = t.nodes.flatMap Node.flatten := by
  simp [pending, fromTop, ofTree]

end NodeStack

/-- A stack that starts with a node, or with the top level of a tree, visits the preorder of what is on
it: as many nodes as there are, each occurrence once. This is what traversals list. Wherever visits
have led, what is still to be visited is the preorder of what is on the stack, from the top down, and
the next visit is the next step of a traversal. -/
theorem stack_visits_preorder :
    (∀ n : Node, (NodeStack.ofNode n).Visits n.flatten ∧ n.flatten.length = n.size ∧
      (∃ places, places.map Prod.snd = n.flatten ∧ IsCensus n.at? places) ∧
      n.preorder = n.flatten) ∧
    (∀ t : Tree, (NodeStack.ofTree t).Visits (t.nodes.flatMap Node.flatten) ∧
      (t.nodes.flatMap Node.flatten).length = Node.sizeAll t.nodes ∧
      (∃ places, places.map Prod.snd = t.nodes.flatMap Node.flatten ∧ IsCensus t.at? places) ∧
      t.preorder = t.nodes.flatMap Node.flatten) ∧
    ∀ s : NodeStack, s.Visits (s.fromTop.flatMap Node.flatten) ∧
      Traversal.next? ⟨s.fromTop⟩ = s.next.1.map fun n => (n, ⟨s.next.2.fromTop⟩) := by
  refine ⟨fun n => ⟨?_, n.length_flatten, ?_, ?_⟩, fun t => ?_,
    fun s => ⟨s.visits_pending, s.next?_fromTop⟩⟩
  · rw [← NodeStack.pending_ofNode]
    exact NodeStack.visits_pending _
  · exact ⟨n.places, n.map_snd_places, n.isCensus_places⟩
  · rw [Node.preorder, Traversal.toList_eq_flattenAll, Node.flattenAll, Node.flattenAll,
      List.append_nil]
  · rw [← Node.flattenAll_eq_flatMap, ← t.preorder_eq_flattenAll]
    refine ⟨?_, ?_, ⟨t.places, t.map_snd_places, t.isCensus_places⟩, rfl⟩
    · rw [t.preorder_eq_flattenAll, Node.flattenAll_eq_flatMap, ← NodeStack.pending_ofTree]
      exact NodeStack.visits_pending _
    · rw [t.preorder_eq_flattenAll, Node.length_flattenAll]

end MigrationLint
