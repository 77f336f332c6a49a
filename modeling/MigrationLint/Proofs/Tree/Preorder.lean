import MigrationLint.Tree.Traversal

/-!
# Traversals list trees in preorder

`Traversal.toList` keeps the nodes still to be visited on a stack. This file gives the preorder of a
tree by recursion (`Node.flatten`), shows that a traversal lists exactly that, and gives each node
of a tree its address: the indices of the children that lead to it.

* `Traversal.toList_eq_flattenAll`: what a traversal still visits is the preorder of its stack, read
  from the top;
* `Tree.map_snd_places`: the nodes of `Tree.places` are those of `Tree.preorder`, in the same order;
* `Node.mem_placesFrom_iff`: `Tree.places` pairs every node with its address.
-/

namespace MigrationLint

/-- The way from the root of a tree to one of its nodes: the index of a child at each step. -/
abbrev Address := List Nat

namespace Address

/-- In preorder one address comes before another. A node comes before the nodes below it and before
those to the right of it, which is the lexicographic order. -/
def Before (a b : Address) : Prop :=
  List.Lex (fun i j => i < j) a b

theorem nil_before_cons (i : Nat) (a : Address) : Before [] (i :: a) :=
  .nil

theorem cons_before_cons_iff {i j : Nat} {a b : Address} :
    Before (i :: a) (j :: b) ↔ i < j ∨ i = j ∧ Before a b :=
  List.cons_lex_cons_iff

theorem not_before_self (a : Address) : ¬Before a a :=
  List.lex_irrefl Nat.lt_irrefl a

theorem Before.asymm {a b : Address} (h : Before a b) : ¬Before b a :=
  List.lex_asymm Nat.lt_asymm h

end Address

/-- Nodes with their addresses, one level down: below the child with index `i`. -/
def under {α : Type} (i : Nat) (places : List (Address × α)) : List (Address × α) :=
  places.map fun p => (i :: p.1, p.2)

section Under

variable {α : Type} {i j : Nat} {a : Address} {x : α} {places : List (Address × α)}

theorem mem_under_iff :
    (a, x) ∈ under i places ↔ ∃ b, a = i :: b ∧ (b, x) ∈ places := by
  simp only [under, List.mem_map, Prod.mk.injEq, Prod.exists]
  constructor
  · rintro ⟨b, y, hmem, rfl, rfl⟩
    exact ⟨b, rfl, hmem⟩
  · rintro ⟨b, rfl, hmem⟩
    exact ⟨b, x, hmem, rfl, rfl⟩

@[simp]
theorem map_snd_under : (under i places).map Prod.snd = places.map Prod.snd := by
  simp [under, Function.comp_def]

/-- Going one level down keeps preorder. -/
theorem pairwise_before_under (h : places.Pairwise fun x y => Address.Before x.1 y.1) :
    (under i places).Pairwise fun x y => Address.Before x.1 y.1 := by
  rw [under, List.pairwise_map]
  exact h.imp fun hxy => Address.cons_before_cons_iff.mpr (.inr ⟨rfl, hxy⟩)

end Under

namespace Node

mutual

/-- The node, then all nodes below it from left to right. -/
def flatten : Node → List Node
  | ⟨kind, name, line, children⟩ => ⟨kind, name, line, children⟩ :: flattenAll children

/-- All nodes of a forest from left to right, each before those below it. -/
def flattenAll : List Node → List Node
  | [] => []
  | n :: ns => flatten n ++ flattenAll ns

end

mutual

/-- The nodes of a tree in preorder, each with its address. -/
def places : Node → List (Address × Node)
  | ⟨kind, name, line, children⟩ => ([], ⟨kind, name, line, children⟩) :: placesFrom 0 children

/-- The nodes of a forest in preorder, each with its address, if the first tree of the forest has
index `i`. -/
def placesFrom (i : Nat) : List Node → List (Address × Node)
  | [] => []
  | n :: ns => under i (places n) ++ placesFrom (i + 1) ns

end

theorem flatten_eq (n : Node) : n.flatten = n :: flattenAll n.children := by
  cases n
  rw [flatten]

theorem places_eq (n : Node) : n.places = ([], n) :: placesFrom 0 n.children := by
  cases n
  rw [places]

theorem flattenAll_append (ns ms : List Node) :
    flattenAll (ns ++ ms) = flattenAll ns ++ flattenAll ms := by
  induction ns with
  | nil => rfl
  | cons n ns ih => rw [List.cons_append, flattenAll, ih, flattenAll, List.append_assoc]

/-- The places of a forest are those of its parts; the second part starts where the first ends. -/
theorem placesFrom_append (i : Nat) (ns ms : List Node) :
    placesFrom i (ns ++ ms) = placesFrom i ns ++ placesFrom (i + ns.length) ms := by
  induction ns generalizing i with
  | nil => rfl
  | cons n ns ih =>
    rw [List.cons_append, placesFrom, ih, placesFrom, List.append_assoc, List.length_cons,
      Nat.add_right_comm, Nat.add_assoc]

mutual

/-- Without the addresses, the places of a tree are its preorder. -/
theorem map_snd_places : ∀ n : Node, n.places.map Prod.snd = n.flatten
  | ⟨kind, name, line, children⟩ => by
    rw [places, List.map_cons, map_snd_placesFrom 0 children, flatten]

/-- Without the addresses, the places of a forest are its preorder. -/
theorem map_snd_placesFrom (i : Nat) :
    ∀ ns : List Node, (placesFrom i ns).map Prod.snd = flattenAll ns
  | [] => rfl
  | n :: ns => by
    rw [placesFrom, List.map_append, map_snd_under, map_snd_places n,
      map_snd_placesFrom (i + 1) ns, flattenAll]

end

/-- The node at an address below a node. -/
def at? (n : Node) : Address → Option Node
  | [] => some n
  | i :: a => n.children[i]?.bind fun m => m.at? a

mutual

/-- The places of a tree are its nodes, each with its own address. -/
theorem mem_places_iff : ∀ {n m : Node} {a : Address}, (a, m) ∈ n.places ↔ n.at? a = some m
  | ⟨kind, name, line, children⟩, m, a => by
    rw [places, List.mem_cons, mem_placesFrom_iff]
    -- the empty address is that of the node itself, every other one starts with a child
    cases a with
    | nil => simp [at?, eq_comm]
    | cons i b =>
      simp only [Prod.mk.injEq, reduceCtorEq, false_and, false_or, at?, Option.bind_eq_some_iff,
        Nat.zero_add, List.cons.injEq]
      constructor
      · rintro ⟨_, _, n, ⟨rfl, rfl⟩, hn, hat⟩
        exact ⟨n, hn, hat⟩
      · rintro ⟨n, hn, hat⟩
        exact ⟨i, b, n, ⟨rfl, rfl⟩, hn, hat⟩

/-- The places of a forest are the nodes of its trees, each with its own address. -/
theorem mem_placesFrom_iff : ∀ {ns : List Node} {i : Nat} {m : Node} {a : Address},
    (a, m) ∈ placesFrom i ns ↔ ∃ j b n, a = (i + j) :: b ∧ ns[j]? = some n ∧ n.at? b = some m
  | [], i, m, a => by simp [placesFrom]
  | n :: ns, i, m, a => by
    rw [placesFrom, List.mem_append, mem_under_iff, mem_placesFrom_iff]
    constructor
    · rintro (⟨b, rfl, hmem⟩ | ⟨j, b, k, rfl, hk, hat⟩)
      · exact ⟨0, b, n, rfl, rfl, mem_places_iff.mp hmem⟩
      · exact ⟨j + 1, b, k, by rw [Nat.add_right_comm, Nat.add_assoc], hk, hat⟩
    · -- index zero is the first tree, the other trees move down by one
      rintro ⟨_ | j, b, k, rfl, hk, hat⟩
      · obtain rfl := Option.some.inj hk
        exact .inl ⟨b, rfl, mem_places_iff.mpr hat⟩
      · exact .inr ⟨j, b, k, by rw [Nat.add_right_comm, Nat.add_assoc], hk, hat⟩

end

/-- Whoever has an address has a parent, whose address is one step shorter. -/
theorem at?_dropLast {n m : Node} {a : Address} (h : n.at? a = some m) :
    ∃ k, n.at? a.dropLast = some k := by
  induction a generalizing n with
  | nil => exact ⟨n, rfl⟩
  | cons i a ih =>
    obtain ⟨k, hk, hat⟩ := Option.bind_eq_some_iff.mp h
    cases a with
    | nil => exact ⟨n, rfl⟩
    | cons j b =>
      obtain ⟨l, hl⟩ := ih hat
      exact ⟨l, by rw [List.dropLast_cons_cons, at?, hk, Option.bind_some, hl]⟩

end Node

namespace Traversal

/-- What a traversal still visits is the preorder of its stack, read from the top. -/
theorem toList_eq_flattenAll (t : Traversal) : t.toList = Node.flattenAll t.stack := by
  -- the induction is on the calls of `toList`: a step can make the stack longer
  induction t using toList.induct with
  | case1 t hend =>
    obtain ⟨_ | ⟨n, rest⟩⟩ := t
    · rw [toList, hend, Node.flattenAll]
    · simp [next?] at hend
  | case2 t n u hnext ih =>
    obtain ⟨_ | ⟨m, rest⟩⟩ := t
    · simp [next?] at hnext
    · obtain ⟨rfl, rfl⟩ : m = n ∧ ⟨m.children ++ rest⟩ = u := by simpa [next?] using hnext
      rw [toList, hnext]
      simp only [ih]
      rw [Node.flattenAll_append, Node.flattenAll, Node.flatten_eq, List.cons_append]

end Traversal

namespace Tree

/-- The nodes of a tree in preorder, each with its address. -/
def places (t : Tree) : List (Address × Node) :=
  Node.placesFrom 0 t.nodes

/-- The preorder of a tree is that of its top-level nodes. -/
theorem preorder_eq_flattenAll (t : Tree) : t.preorder = Node.flattenAll t.nodes := by
  rw [preorder, Traversal.toList_eq_flattenAll]

/-- The nodes of `places` are those of `preorder`, in the same order. -/
theorem map_snd_places (t : Tree) : t.places.map Prod.snd = t.preorder := by
  rw [places, Node.map_snd_placesFrom, preorder_eq_flattenAll]

/-- The parent of a node that is not at the top level is listed too, at the address that is one
step shorter. -/
theorem dropLast_mem_places {t : Tree} {a : Address} {m : Node} (hmem : (a, m) ∈ t.places)
    (htop : a.dropLast ≠ []) : ∃ k, (a.dropLast, k) ∈ t.places := by
  obtain ⟨j, b, n, rfl, hn, hat⟩ := Node.mem_placesFrom_iff.mp hmem
  cases b with
  | nil => simp at htop
  | cons i b =>
    obtain ⟨k, hk⟩ := Node.at?_dropLast hat
    exact ⟨k, Node.mem_placesFrom_iff.mpr ⟨j, (i :: b).dropLast, n, rfl, hn, hk⟩⟩

end Tree

end MigrationLint
