/-!
# Progress counters

A counter counts the files that have been checked. Copies of a counter share its count, so that
several workers can advance it; counters of different families do not affect each other.
-/

namespace MigrationLint

/-- A number of counters. Each one belongs to a family, and a family has one count. Counts are natural
numbers here. As atomic integers of 64 bits they would start over after 2^64 steps, which is more than
any run can take. -/
structure Counters where
  /-- The family of each counter. -/
  families : List Nat
  /-- The count of each family. -/
  counts : List Nat
  deriving DecidableEq, Repr

/-- What can be done with counters. -/
inductive CounterStep
  /-- Advances a counter by one. -/
  | advance (counter : Nat)
  /-- Tells a counter how far it may go, which does not change its position. -/
  | setTotal (counter total : Nat)
  /-- Takes a counter from the screen, which does not change its position. -/
  | finish (counter : Nat)
  /-- Adds a copy of a counter. -/
  | copy (counter : Nat)
  /-- Adds a counter with a family of its own. -/
  | add
  deriving DecidableEq, Repr

namespace Counters

/-- A single counter that stands at zero. -/
def single : Counters :=
  ⟨[0], [0]⟩

/-- The position of every counter. -/
def positions (c : Counters) : List Nat :=
  c.families.map fun family => c.counts.getD family 0

/-- The counters after a step. -/
def step (c : Counters) : CounterStep → Counters
  | .advance counter =>
    match c.families[counter]? with
    | some family => { c with counts := c.counts.modify family (· + 1) }
    | none => c
  | .setTotal _ _ | .finish _ => c
  | .copy counter =>
    match c.families[counter]? with
    | some family => { c with families := c.families ++ [family] }
    | none => c
  | .add => ⟨c.families ++ [c.counts.length], c.counts ++ [0]⟩

/-- The counters after each of several steps. -/
def history (c : Counters) : List CounterStep → List Counters
  | [] => []
  | s :: steps => c.step s :: history (c.step s) steps

end Counters

end MigrationLint
