import Mathlib.Data.List.Perm.Subperm
import MigrationLint.Proofs.Check.Alike
import MigrationLint.Proofs.Check.Record

/-!
# Failures stay with their files

Whatever is wrong with one candidate does not affect the outcome for another one. This is said about
two runs, on file systems of the same shape: where a candidate has the same content on both of them,
its outcome is the same. So a change of some candidates changes at most as many outcomes.

* `Report.changes`: the number of places at which the outcomes of two reports differ;
* `Checker.Ends.outcomes_eq`: the outcomes of a run, however it ends;
* `Checker.failures_stay_local`: two runs on file systems of the same shape.
-/

namespace MigrationLint

/-! ## Counting -/

section Count

variable {α : Type} {p : α → Bool} {as bs : List α}

/-- If all members of a kind are in another list, there are no more of them than this list is long.
-/
theorem countP_le_length_of_nodup (hnodup : as.Nodup) (h : ∀ a ∈ as, p a = true → a ∈ bs) :
    as.countP p ≤ bs.length := by
  rw [List.countP_eq_length_filter]
  have hsubset : as.filter p ⊆ bs := by
    intro a ha
    obtain ⟨hmem, hp⟩ := List.mem_filter.mp ha
    exact h a hmem hp
  exact (List.subperm_of_subset (hnodup.filter p) hsubset).length_le

/-- Two functions have as many values of a kind, but for the arguments at which they differ. -/
theorem countP_comp_le {β : Type} [DecidableEq β] (keep : β → Bool) (f g : α → β) (as : List α) :
    as.countP (keep ∘ f) ≤ as.countP (keep ∘ g) + as.countP fun a => f a ≠ g a := by
  induction as with
  | nil => exact Nat.zero_le _
  | cons a as ih =>
    rw [List.countP_cons, List.countP_cons, List.countP_cons]
    rcases eq_or_ne (f a) (g a) with heq | hne
    · simp only [Function.comp_apply, heq]
      omega
    · -- the argument counts as one at which the functions differ
      rw [if_pos (decide_eq_true hne)]
      split <;> omega

end Count

/-- The number of places at which the outcomes of two reports differ. -/
def Report.changes (r r' : Report) : Nat :=
  (r.outcomes.zip r'.outcomes).countP fun x => x.1 ≠ x.2

namespace Checker

variable {F : Type} [PathFilter F] {c : Checker F} {s u : FileSystem} {inputs : List Path}
variable {r r' : Record}

/-- However a run ends, its outcomes are what is found at its candidates. -/
theorem Ends.outcomes_eq (h : c.Ends s inputs r) :
    r.report.outcomes = (c.candidates s inputs).map (inspect s.toFileTree c.parser c.method) := by
  rw [h.report_eq, outcomes_run]

/-- There is one outcome for each candidate. -/
theorem Ends.paths_eq (h : c.Ends s inputs r) :
    r.report.outcomes.map Outcome.path = c.candidates s inputs := by
  rw [h.report_eq, paths_run]

/-! ## Two runs -/

/-- The outcomes of a run on the second file system stand at the same places as those of a run on the
first one. -/
theorem Ends.outcomes_eq_of_sameShape (hshape : s.SameShape u) (h : c.Ends u inputs r) :
    r.report.outcomes = (c.candidates s inputs).map (inspect u.toFileTree c.parser c.method) := by
  rw [h.outcomes_eq, candidates, candidates, hshape.resolve]

/-- A candidate with the same content on both file systems has the same outcome. -/
theorem Ends.eq_of_sameContent (hshape : s.SameShape u) (h : c.Ends s inputs r)
    (h' : c.Ends u inputs r') {k : Nat} {o o' : Outcome} (ho : r.report.outcomes[k]? = some o)
    (ho' : r'.report.outcomes[k]? = some o') (hcontent : s.SameContent u.toFileTree o.path) :
    o = o' := by
  -- both outcomes are what is found at the same candidate
  rw [h.outcomes_eq, List.getElem?_map, Option.map_eq_some_iff] at ho
  rw [h'.outcomes_eq_of_sameShape hshape, List.getElem?_map, Option.map_eq_some_iff] at ho'
  obtain ⟨p, hp, rfl⟩ := ho
  obtain ⟨p', hp', rfl⟩ := ho'
  obtain rfl : p = p' := Option.some.inj (hp.symm.trans hp')
  exact inspect_of_sameContent (hshape.regular p) hcontent c.parser c.method

/-- Outcomes change only at candidates whose content changes. -/
theorem Ends.changes_le (hshape : s.SameShape u) (h : c.Ends s inputs r) (h' : c.Ends u inputs r')
    {changed : List Path}
    (hchanged : ∀ p ∈ c.candidates s inputs, p ∉ changed → s.SameContent u.toFileTree p) :
    r.report.changes r'.report ≤ changed.length := by
  unfold Report.changes
  rw [h.outcomes_eq, h'.outcomes_eq_of_sameShape hshape, List.zip_map', List.countP_map]
  -- no candidate is there twice, so each of the changed ones counts once
  refine countP_le_length_of_nodup (nodup_candidates c s inputs) fun p hp hdiffer => ?_
  by_contra hsame
  have heq := inspect_of_sameContent (hshape.regular p) (hchanged p hp hsame) c.parser c.method
  simp [heq] at hdiffer

/-- An outcome that is a failure in one of two runs only is a change. -/
theorem Ends.errors_le (hshape : s.SameShape u) (h : c.Ends s inputs r) (h' : c.Ends u inputs r') :
    r.summary.errorsCount ≤ r'.summary.errorsCount + r.report.changes r'.report ∧
      r'.summary.errorsCount ≤ r.summary.errorsCount + r.report.changes r'.report := by
  rw [h.accounts.tallied.errors, h'.accounts.tallied.errors, Report.changes, h.outcomes_eq,
    h'.outcomes_eq_of_sameShape hshape, List.zip_map', List.countP_map, List.countP_map,
    List.countP_map]
  -- only what the two runs find at a candidate matters from here on
  generalize inspect s.toFileTree c.parser c.method = f
  generalize inspect u.toFileTree c.parser c.method = g
  constructor
  · exact countP_comp_le _ f g _
  · have hsymm : (fun p => decide (f p ≠ g p)) = fun p => decide (g p ≠ f p) := by
      funext p
      exact decide_eq_decide.mpr ne_comm
    change _ ≤ _ + List.countP (fun p => decide (f p ≠ g p)) _
    rw [hsymm]
    exact countP_comp_le _ g f _

/-- It does not matter for how a run ends whether files are checked at the same time. -/
theorem Ends.of_parallel {parallel : Bool} (h : { c with parallel := parallel }.Ends s inputs r) :
    c.Ends s inputs r := by
  cases h with
  | unresolved hresolve => exact .unresolved hresolve
  | empty hresolve => exact .empty hresolve
  | checked hresolve hsome => exact .checked hresolve hsome

/-- Two runs on file systems of the same shape have the same candidates. At each of them that has the
same content on both file systems they have the same outcome, also if only one of the runs checks
files at the same time. If the content of no more than some candidates changes, no more outcomes
change, and the number of failures changes by no more. A file that several candidates lead to counts
once for each of them. -/
theorem failures_stay_local (c : Checker F) (parallel : Bool) {s u : FileSystem}
    (hshape : s.SameShape u) (inputs : List Path) :
    s.resolve c.filter inputs = u.resolve c.filter inputs ∧
    (∃ r, c.EndsIn s inputs r) ∧
    (∃ r', { c with parallel := parallel }.EndsIn u inputs r') ∧
    ∀ r r', c.EndsIn s inputs r → { c with parallel := parallel }.EndsIn u inputs r' →
      r.report.outcomes.map Outcome.path = r'.report.outcomes.map Outcome.path ∧
      (∀ (k : Nat) (o o' : Outcome), r.report.outcomes[k]? = some o →
        r'.report.outcomes[k]? = some o' → s.SameContent u.toFileTree o.path → o = o') ∧
      ∀ changed : List Path,
        (∀ o ∈ r.report.outcomes, o.path ∉ changed → s.SameContent u.toFileTree o.path) →
          r.report.changes r'.report ≤ changed.length ∧
          r.summary.errorsCount ≤ r'.summary.errorsCount + changed.length ∧
          r'.summary.errorsCount ≤ r.summary.errorsCount + changed.length := by
  refine ⟨hshape.resolve c.filter inputs, exists_endsIn c s inputs, exists_endsIn _ u inputs, ?_⟩
  intro r r' hends hends'
  -- who does the checking is of no account any more
  have h := hends.ends
  have h' := hends'.ends.of_parallel
  refine ⟨?_, fun k o o' => h.eq_of_sameContent hshape h', fun changed hchanged => ?_⟩
  · rw [h.paths_eq, h'.paths_eq, candidates, candidates, hshape.resolve]
  · have hpaths : ∀ p ∈ c.candidates s inputs, p ∉ changed → s.SameContent u.toFileTree p := by
      rw [← h.paths_eq]
      exact List.forall_mem_map.mpr hchanged
    have hchanges := h.changes_le hshape h' hpaths
    obtain ⟨hle, hge⟩ := h.errors_le hshape h'
    exact ⟨hchanges, by omega, by omega⟩

end Checker

/-- The files of `mixedSystem` after the one that passes has become unreadable. -/
def spoiltSystem : FileSystem :=
  { mixedSystem with
    toFileTree := mixedSystem.toFileTree.set ["db", "a.php"] (.broken .inputOutput) }

/-- When a file becomes unreadable, the outcome for the file after it stays, and no more than one
outcome changes. -/
theorem mixedSystem_failures_stay_local :
    mixedSystem.SameShape spoiltSystem ∧
    ∃ r r', rejectsEmpty.EndsIn mixedSystem [⟨"db"⟩] r ∧
      { rejectsEmpty with parallel := true }.EndsIn spoiltSystem [⟨"db"⟩] r' ∧
      (∀ o o', r.report.outcomes[1]? = some o → r'.report.outcomes[1]? = some o' → o = o') ∧
      r.report.changes r'.report ≤ 1 ∧
      r'.summary.errorsCount ≤ r.summary.errorsCount + 1 := by
  have hbroken : FileEntry.Regular (.broken .inputOutput) := .broken
  have hkinds : mixedSystem.SameKinds spoiltSystem.toFileTree :=
    FileTree.sameKinds_set (by decide) rfl .file hbroken
  have hshape : mixedSystem.SameShape spoiltSystem := hkinds.sameShape mixedSystem.list
  obtain ⟨-, ⟨r, hr⟩, ⟨r', hr'⟩, hruns⟩ := rejectsEmpty.failures_stay_local true hshape [⟨"db"⟩]
  obtain ⟨-, hsame, hchanged⟩ := hruns r r' hr hr'
  have hpaths : r.report.outcomes.map Outcome.path =
      [⟨"db/a.php"⟩, ⟨"db/b.php"⟩, ⟨"db/c.php"⟩, ⟨"db/d.php"⟩] := by
    rw [hr.ends.paths_eq]
    decide +kernel
  -- the other three candidates read as before, or fail to for the same reason
  have hcontent : ∀ p ∈ [⟨"db/b.php"⟩, ⟨"db/c.php"⟩, ⟨"db/d.php"⟩],
      mixedSystem.SameContent spoiltSystem.toFileTree p := by
    have hread : ∀ {p x}, mixedSystem.read p = x → spoiltSystem.read p = x →
        mixedSystem.SameContent spoiltSystem.toFileTree p := by
      rintro p _ rfl hsame
      rw [FileTree.SameContent, hsame]
    simp only [List.forall_mem_cons, List.not_mem_nil, false_imp_iff, implies_true, and_true]
    exact ⟨hread (x := .ok []) rfl rfl, hread (x := .error .inputOutput) rfl rfl,
      hread (x := .error .isADirectory) rfl rfl⟩
  have hothers : ∀ p ∈ r.report.outcomes.map Outcome.path, p ∉ [⟨"db/a.php"⟩] →
      mixedSystem.SameContent spoiltSystem.toFileTree p := by
    rw [hpaths]
    intro p hp hother
    exact hcontent p ((List.mem_cons.mp hp).resolve_left fun heq => hother (heq ▸ .head _))
  obtain ⟨hchanges, -, herrors⟩ := hchanged [⟨"db/a.php"⟩] (List.forall_mem_map.mp hothers)
  refine ⟨hshape, r, r', hr, hr', fun o o' ho ho' => hsame 1 o o' ho ho' ?_, hchanges, herrors⟩
  have hsecond : (r.report.outcomes.map Outcome.path)[1]? = some ⟨"db/b.php"⟩ := by rw [hpaths]; rfl
  rw [List.getElem?_map, ho] at hsecond
  rw [Option.some.inj hsecond]
  exact hcontent _ (.head _)

end MigrationLint
