import MigrationLint.Check.Candidates

/-!
# Patterns that are well formed but too deep

Whether a pattern is well formed does not depend on how deep its groups nest, but whether it can be
compiled does. This file shows both for a family of patterns: one character within any number of
groups.

* `Glob.parse_nested`: every pattern of the family is well formed;
* `Glob.compileFault?_nested`: those with at least 250 groups cannot be compiled.
-/

namespace MigrationLint.Glob

/-- A character within a number of groups, as it is written. -/
def nestedChars : Nat → List Char
  | 0 => ['a']
  | n + 1 => '\x7b' :: (nestedChars n ++ ['\x7d'])

/-- A character within a number of groups, as a token. -/
def nestedToken : Nat → Token
  | 0 => .literal 'a'
  | n + 1 => .group [[nestedToken n]]

/-- The pattern for a character within a number of groups. -/
def nested (n : Nat) : Glob :=
  ⟨String.ofList (nestedChars n), [nestedToken n]⟩

/-- Reading a character within groups adds its token, whatever has been read before. -/
theorem read_nestedChars (n : Nat) (d : Draft) (cs : List Char) :
    ∃ last, read d (nestedChars n ++ cs) =
      read ⟨nestedToken n :: d.branch, d.groups, last⟩ cs := by
  induction n generalizing d cs with
  | zero =>
    refine ⟨some 'a', ?_⟩
    rw [nestedChars, List.cons_append, List.nil_append, read]
    · rfl
    all_goals simp
  | succ n ih =>
    -- the inner groups are read into the branch of the outermost one, which its brace then closes
    refine ⟨some '\x7d', ?_⟩
    obtain ⟨last, hinner⟩ := ih d.openGroup ('\x7d' :: cs)
    calc read d (nestedChars (n + 1) ++ cs)
      _ = read d ('\x7b' :: (nestedChars n ++ '\x7d' :: cs)) := by
        rw [nestedChars, List.cons_append, List.append_assoc, List.singleton_append]
      _ = read d.openGroup (nestedChars n ++ '\x7d' :: cs) := by rw [read]
      _ = read ⟨nestedToken n :: d.openGroup.branch, d.openGroup.groups, last⟩ ('\x7d' :: cs) :=
        hinner
      _ = read ⟨nestedToken (n + 1) :: d.branch, d.groups, some '\x7d'⟩ cs := by
        rw [read]
        rfl

/-- A character within any number of groups is a well-formed pattern. -/
theorem parse_nested (n : Nat) : parse (String.ofList (nestedChars n)) = .ok (nested n) := by
  obtain ⟨last, hread⟩ := read_nestedChars n .start []
  rw [List.append_nil, read] at hread
  rw [parse, String.toList_ofList, hread]
  rfl

/-- Each group adds a level to the parts of the expression. -/
theorem depths_nestedToken (n : Nat) : (nestedToken n).depths = [n] := by
  induction n with
  | zero => rfl
  | succ n ih =>
    rw [nestedToken, Token.depths, Token.alternativeDepths, Token.partDepths, ih, Token.partDepths]
    rfl

/-- The expression of the whole pattern has one more level. -/
theorem depth_nested (n : Nat) : (nested n).depth = n + 1 := by
  rw [depth, nested, Token.partDepths, depths_nestedToken, Token.partDepths]
  simp [Token.greatest]

/-- A character within groups cannot be compiled iff the groups are at least 250. -/
theorem compileFault?_nested {n : Nat} (hn : 0 < n) :
    compileFault? [nested n] = if n < 250 then none else some (.together 0) := by
  obtain ⟨n, rfl⟩ := Nat.exists_eq_succ_of_ne_zero (Nat.ne_of_gt hn)
  have hdeep : (nested (n + 1)).isTooDeep = !decide (n + 1 < 250) := by
    rw [isTooDeep, depth_nested, maxDepth, ← decide_not]
    exact decide_eq_decide.mpr (by omega)
  have halone : [nested (n + 1)].filter (fun g => g.method = .alone) = [] := rfl
  have htogether : [nested (n + 1)].filter (fun g => g.method = .together) = [nested (n + 1)] := rfl
  rw [compileFault?, halone, htogether, List.find?_nil, List.findIdx?_singleton, hdeep]
  by_cases hlt : n + 1 < 250
  · simp [hlt]
  · simp [hlt]

end MigrationLint.Glob
