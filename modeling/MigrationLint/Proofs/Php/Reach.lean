import MigrationLint.Php.Cst
import MigrationLint.Proofs.Tree.Preorder

/-!
# Paths down concrete trees

A path leads from a concrete tree to a tree below it. It enters named nodes only, and a relation
`opens` between a tree and the index of a child says where it may go on.

* `Cst.Path`: what a path reaches, with the address relative to where it starts;
* `Cst.Below`: the same from a root that may be left towards every named child;
* `Cst.reachedBelow_enumerates`: `Cst.reachedBelow` lists what is reached from a root, in preorder.
-/

namespace MigrationLint.Php

/-- A list holds exactly the trees with a property, each at its address, in preorder. -/
structure Enumerates (P : Address → Cst → Prop) (places : List (Address × Cst)) : Prop where
  /-- The list is in preorder. -/
  sorted : places.Pairwise fun x y => Address.Before x.1 y.1
  /-- The list holds what has the property and nothing else. -/
  mem_iff : ∀ a c, (a, c) ∈ places ↔ P a c

namespace Cst

section Path

variable (opens : Cst → Nat → Prop)

/-- A path that enters named nodes only and leaves each node towards a child that is open. -/
inductive Path : Cst → Address → Cst → Prop
  /-- The path that goes nowhere. -/
  | here (c : Cst) : Path c [] c
  /-- A step to a child, and on from there. -/
  | down {c d e : Cst} {i : Nat} {a : Address} (hopen : opens c i)
      (hchild : c.children[i]? = some d) (hnamed : d.label.named = true) (hpath : Path d a e) :
      Path c (i :: a) e

/-- What lies below a root: the first step may go to every named child, and from there a path goes
on. -/
inductive Below (root : Cst) : Address → Cst → Prop
  /-- A step to a child, and on from there. -/
  | down {d e : Cst} {i : Nat} {a : Address} (hchild : root.children[i]? = some d)
      (hnamed : d.label.named = true) (hpath : Path opens d a e) : Below root (i :: a) e

end Path

section Reached

variable (opens : Cst → Nat → Prop) [DecidableRel opens]

mutual

/-- What paths from a tree reach, in preorder. -/
def reached : Cst → List (Address × Cst)
  | ⟨label, children⟩ =>
    ([], ⟨label, children⟩) :: reachedFrom (fun i => opens ⟨label, children⟩ i) 0 children

/-- What paths into a forest reach, in preorder, if the first tree of the forest has index `i` and
`isOpen` says which trees may be entered. -/
def reachedFrom (isOpen : Nat → Bool) (i : Nat) : List Cst → List (Address × Cst)
  | [] => []
  | c :: cs =>
    (if isOpen i && c.label.named then under i (reached c) else []) ++
      reachedFrom isOpen (i + 1) cs

end

/-- What lies below a root, in preorder. -/
def reachedBelow (root : Cst) : List (Address × Cst) :=
  reachedFrom opens (fun _ => true) 0 root.children

variable {opens}

theorem reached_eq (c : Cst) :
    c.reached opens = ([], c) :: reachedFrom opens (fun i => opens c i) 0 c.children := by
  cases c
  rw [reached]

/-- Nothing is reached if nothing may be entered. -/
theorem reachedFrom_eq_nil {isOpen : Nat → Bool} :
    ∀ {cs : List Cst} {i : Nat}, (∀ j, isOpen (i + j) = false) → reachedFrom opens isOpen i cs = []
  | [], i, _ => by rw [reachedFrom]
  | c :: cs, i, hclosed => by
    rw [reachedFrom, reachedFrom_eq_nil fun j => ?_]
    · simp [show isOpen i = false from hclosed 0]
    · rw [Nat.add_assoc, Nat.add_comm 1 j]
      exact hclosed (j + 1)

mutual

/-- The list for a tree holds exactly what paths from it reach. -/
theorem mem_reached_iff : ∀ {c d : Cst} {a : Address},
    (a, d) ∈ c.reached opens ↔ Path opens c a d
  | ⟨label, children⟩, d, a => by
    rw [reached, List.mem_cons, mem_reachedFrom_iff]
    constructor
    · rintro (hhere | ⟨j, b, e, rfl, hchild, hopen, hnamed, hpath⟩)
      · obtain ⟨rfl, rfl⟩ := Prod.mk.inj hhere
        exact .here _
      · rw [Nat.zero_add] at hopen ⊢
        exact .down (of_decide_eq_true hopen) hchild hnamed hpath
    · -- a path goes nowhere or starts with a step to a child
      rintro (_ | ⟨hopen, hchild, hnamed, hpath⟩)
      · exact .inl rfl
      · refine .inr ⟨_, _, _, by rw [Nat.zero_add], hchild, ?_, hnamed, hpath⟩
        rw [Nat.zero_add]
        exact decide_eq_true hopen

/-- The list for a forest holds exactly what paths through trees that may be entered reach. -/
theorem mem_reachedFrom_iff {isOpen : Nat → Bool} :
    ∀ {cs : List Cst} {i : Nat} {d : Cst} {a : Address},
      (a, d) ∈ reachedFrom opens isOpen i cs ↔
        ∃ j b c, a = (i + j) :: b ∧ cs[j]? = some c ∧ isOpen (i + j) = true ∧
          c.label.named = true ∧ Path opens c b d
  | [], i, d, a => by simp [reachedFrom]
  | c :: cs, i, d, a => by
    rw [reachedFrom, List.mem_append, mem_reachedFrom_iff]
    constructor
    · rintro (hhead | ⟨j, b, e, rfl, he, hopen, hnamed, hpath⟩)
      -- the first tree contributes something only if it may be entered
      · split at hhead
        · next henter =>
          obtain ⟨b, rfl, hmem⟩ := mem_under_iff.mp hhead
          obtain ⟨hopen, hnamed⟩ := Bool.and_eq_true_iff.mp henter
          exact ⟨0, b, c, rfl, rfl, hopen, hnamed, mem_reached_iff.mp hmem⟩
        · simp at hhead
      · refine ⟨j + 1, b, e, ?_, he, ?_, hnamed, hpath⟩
        · rw [Nat.add_right_comm, Nat.add_assoc]
        · rwa [Nat.add_right_comm, Nat.add_assoc] at hopen
    · rintro ⟨_ | j, b, e, rfl, he, hopen, hnamed, hpath⟩
      · obtain rfl := Option.some.inj he
        rw [Nat.add_zero] at hopen
        rw [if_pos (by rw [hopen, hnamed, Bool.and_true])]
        exact .inl (mem_under_iff.mpr ⟨b, rfl, mem_reached_iff.mpr hpath⟩)
      · rw [← Nat.add_assoc, Nat.add_right_comm] at hopen ⊢
        exact .inr ⟨j, b, e, rfl, he, hopen, hnamed, hpath⟩

end

mutual

/-- The list for a tree is in preorder. -/
theorem pairwise_reached : ∀ c : Cst, (c.reached opens).Pairwise fun x y => Address.Before x.1 y.1
  | ⟨label, children⟩ => by
    rw [reached, List.pairwise_cons]
    refine ⟨fun ⟨a, d⟩ hmem => ?_, pairwise_reachedFrom children⟩
    obtain ⟨j, b, _, rfl, _⟩ := mem_reachedFrom_iff.mp hmem
    exact Address.nil_before_cons _ _

/-- The list for a forest is in preorder. -/
theorem pairwise_reachedFrom {isOpen : Nat → Bool} :
    ∀ {i : Nat} (cs : List Cst),
      (reachedFrom opens isOpen i cs).Pairwise fun x y => Address.Before x.1 y.1
  | i, [] => by
    rw [reachedFrom]
    exact .nil
  | i, c :: cs => by
    rw [reachedFrom, List.pairwise_append]
    refine ⟨?_, pairwise_reachedFrom cs, fun ⟨a, d⟩ hfirst ⟨b, e⟩ hlater => ?_⟩
    · split
      · exact pairwise_before_under (pairwise_reached c)
      · exact .nil
    -- across the two parts the index of the tree decides
    · split at hfirst
      · obtain ⟨a', rfl, _⟩ := mem_under_iff.mp hfirst
        obtain ⟨j, b', _, rfl, _⟩ := mem_reachedFrom_iff.mp hlater
        exact Address.cons_before_cons_iff.mpr (.inl (by omega))
      · simp at hfirst

end

/-- What lies below a root is listed in preorder. -/
theorem reachedBelow_enumerates (root : Cst) :
    Enumerates (Below opens root) (root.reachedBelow opens) where
  sorted := pairwise_reachedFrom _
  mem_iff a d := by
    rw [reachedBelow, mem_reachedFrom_iff]
    constructor
    · rintro ⟨j, b, c, rfl, hchild, -, hnamed, hpath⟩
      rw [Nat.zero_add]
      exact .down hchild hnamed hpath
    · rintro ⟨hchild, hnamed, hpath⟩
      exact ⟨_, _, _, by rw [Nat.zero_add], hchild, rfl, hnamed, hpath⟩

end Reached

end Cst

/-- Leaving out what lacks a second property keeps the enumeration. -/
theorem Enumerates.filter {P : Address → Cst → Prop} {places : List (Address × Cst)}
    (h : Enumerates P places) (Q : Cst → Prop) [DecidablePred Q] :
    Enumerates (fun a c => P a c ∧ Q c) (places.filter fun p => Q p.2) where
  sorted := h.sorted.filter _
  mem_iff a c := by rw [List.mem_filter, h.mem_iff, decide_eq_true_iff]

/-- The first listed tree with a second property is the one at the least address. -/
theorem Enumerates.find?_eq_some_iff {P : Address → Cst → Prop} {places : List (Address × Cst)}
    (h : Enumerates P places) (Q : Cst → Prop) [DecidablePred Q] {a : Address} {c : Cst} :
    places.find? (fun p => Q p.2) = some (a, c) ↔
      P a c ∧ Q c ∧ ∀ b d, P b d → Q d → b = a ∨ a.Before b := by
  rw [List.find?_eq_some_iff_append]
  constructor
  · rintro ⟨hc, before, after, hplaces, hnone⟩
    refine ⟨(h.mem_iff a c).mp (by simp [hplaces]), of_decide_eq_true hc, fun b d hb hd => ?_⟩
    have hsorted := h.sorted
    rw [hplaces, List.pairwise_append, List.pairwise_cons] at hsorted
    have hmem := (h.mem_iff b d).mpr hb
    rw [hplaces, List.mem_append, List.mem_cons] at hmem
    -- a tree with the property cannot stand before the first one
    rcases hmem with hmem | heq | hmem
    · simpa [hd] using hnone _ hmem
    · obtain ⟨rfl, rfl⟩ := Prod.mk.inj heq
      exact .inl rfl
    · exact .inr (hsorted.2.1.1 _ hmem)
  · rintro ⟨hP, hc, hleast⟩
    obtain ⟨before, after, hplaces⟩ := List.append_of_mem ((h.mem_iff a c).mpr hP)
    refine ⟨decide_eq_true hc, before, after, hplaces, fun ⟨b, d⟩ hb => ?_⟩
    have hsorted := h.sorted
    rw [hplaces, List.pairwise_append] at hsorted
    have hbefore : b.Before a := hsorted.2.2 _ hb _ List.mem_cons_self
    have hPb := (h.mem_iff b d).mp (by rw [hplaces]; exact List.mem_append_left _ hb)
    have hd : ¬Q d := by
      intro hd
      rcases hleast b d hPb hd with rfl | hafter
      · exact Address.not_before_self b hbefore
      · exact hafter.asymm hbefore
    simpa using hd

/-- One tree is listed iff it is the only one with the property. -/
theorem Enumerates.eq_singleton_iff {P : Address → Cst → Prop} {places : List (Address × Cst)}
    (h : Enumerates P places) {a : Address} {c : Cst} :
    places = [(a, c)] ↔ ∀ b d, P b d ↔ b = a ∧ d = c := by
  constructor
  · rintro rfl b d
    rw [← h.mem_iff, List.mem_singleton, Prod.mk.injEq]
  · intro honly
    have hmem : (a, c) ∈ places := (h.mem_iff a c).mpr ((honly a c).mpr ⟨rfl, rfl⟩)
    have heq : ∀ p ∈ places, p = (a, c) := fun ⟨b, d⟩ hp =>
      Prod.ext_iff.mpr ((honly b d).mp ((h.mem_iff b d).mp hp))
    match places, h.sorted with
    | [], _ => simp at hmem
    | [p], _ => rw [heq p List.mem_cons_self]
    | p :: q :: _, hsorted =>
      -- two entries would be equal, but the list increases
      have hbefore := (List.pairwise_cons.mp hsorted).1 q List.mem_cons_self
      rw [heq p List.mem_cons_self, heq q (by simp)] at hbefore
      exact absurd hbefore (Address.not_before_self a)

end MigrationLint.Php
