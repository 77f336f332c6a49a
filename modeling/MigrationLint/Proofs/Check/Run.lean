import MigrationLint.Proofs.Check.Resolution

/-!
# What a run succeeds on

A run succeeds iff there is something to check and all of it passes. This file says what is to be
checked and what it means for a file to pass, and shows that no problem with an input or a file is
lost between them and the exit code.

* `Candidate`: the paths that inputs stand for;
* `Compliant`: a path leads to a file that passes;
* `Checker.run_exitCode_eq_zero_iff`: the exit code of a run in these terms.
-/

namespace MigrationLint

/-! ## Candidates -/

/-- The paths that inputs stand for. -/
inductive Candidate (t : FileTree) (f : EntryFilter) (inputs : List Path) : Path → Prop
  /-- An input that is not a directory stands for itself. -/
  | input {p : Path} (hinput : p ∈ inputs) (hfile : t.directory? p = none) :
      Candidate t f inputs p
  /-- An input that is a directory stands for those of its entries that the filter lets through. -/
  | entry {p : Path} {l : Location} {name : String} (hinput : p ∈ inputs)
      (hdirectory : t.directory? p = some l) (hname : name ∈ t.names l)
      (haccepts : f.accepts (p.normal.join name) = true) :
      Candidate t f inputs (p.normal.join name)

namespace FileTree

variable {t : FileTree} {f : EntryFilter} {inputs : List Path}

/-- Inputs resolve to exactly the candidates. -/
theorem mem_iff_candidate {candidates : List Path} (h : t.resolve f inputs = .ok candidates)
    {q : Path} : q ∈ candidates ↔ Candidate t f inputs q := by
  rw [FileSystem.mem_iff_of_resolve h]
  constructor
  · rintro (⟨hinput, hfile⟩ | ⟨⟨p, hinput, l, names, name, hdirectory, hlist, hname, rfl⟩, haccepts⟩)
    · exact .input hinput hfile
    · obtain ⟨-, rfl⟩ := list_listed_eq_ok_iff.mp hlist
      exact .entry hinput hdirectory hname haccepts
  · rintro (⟨hinput, hfile⟩ | @⟨p, l, name, hinput, hdirectory, hname, haccepts⟩)
    · exact .inl ⟨hinput, hfile⟩
    · -- a directory among inputs that are resolved has been listed
      obtain ⟨-, hopen⟩ := (exists_scan_iff f).mp ((FileSystem.resolve_eq_ok_iff.mp h).1 p hinput)
      have hlist := list_listed_eq_ok_iff.mpr ⟨hopen l hdirectory, rfl⟩
      exact .inr ⟨⟨p, hinput, l, _, name, hdirectory, hlist, hname, rfl⟩, haccepts⟩

end FileTree

/-! ## Files that pass -/

/-- A path leads to a regular file that can be read, and its text has a syntax tree that passes.
Bytes that are not text are replaced. -/
structure Compliant (t : FileTree) (parser : SourceParser) (method : String) (p : Path) : Prop where
  /-- The path leads to a regular file. -/
  regular : t.isRegularFile p = true
  /-- What is in the file passes. -/
  passes : ∃ bytes tree, t.read p = .ok bytes ∧
    parser p (String.ofList (Utf8.decodeLossy bytes)) = .ok tree ∧ tree.verdict method = .pass

namespace Finding

/-- A finding is a pass iff it is a syntax tree that passes. -/
theorem verdict_eq_pass_iff {f : Finding} {method : String} :
    f.verdict method = .pass ↔ ∃ tree, f = .parsed tree ∧ tree.verdict method = .pass := by
  cases f with
  | notAFile | unreadable _ | rejected _ => simp [verdict]
  | parsed tree => simp [verdict]

/-- A syntax tree is found iff it is that of the text of a regular file that can be read. -/
theorem ofPath_eq_parsed_iff {t : FileTree} {parser : SourceParser} {p : Path} {tree : Tree} :
    ofPath t parser p = .parsed tree ↔
      t.isRegularFile p = true ∧ ∃ bytes, t.read p = .ok bytes ∧
        parser p (String.ofList (Utf8.decodeLossy bytes)) = .ok tree := by
  rw [ofPath]
  by_cases hregular : t.isRegularFile p = true
  · rw [if_pos hregular]
    cases t.read p with
    | error fault => simp
    | ok bytes =>
      simp only [hregular, true_and, Except.ok.injEq, exists_eq_left']
      cases parser p (String.ofList (Utf8.decodeLossy bytes)) <;> simp
  · rw [if_neg hregular]
    simp [hregular]

end Finding

/-- The outcome for a path is a pass iff the path leads to a file that passes. -/
theorem inspect_verdict_eq_pass_iff {t : FileTree} {parser : SourceParser} {method : String}
    {p : Path} : (inspect t parser method p).verdict = .pass ↔ Compliant t parser method p := by
  rw [inspect, Finding.verdict_eq_pass_iff]
  constructor
  · rintro ⟨tree, hfound, hpass⟩
    obtain ⟨hregular, bytes, hread, hparse⟩ := Finding.ofPath_eq_parsed_iff.mp hfound
    exact ⟨hregular, bytes, tree, hread, hparse, hpass⟩
  · rintro ⟨hregular, bytes, tree, hread, hparse, hpass⟩
    exact ⟨tree, Finding.ofPath_eq_parsed_iff.mpr ⟨hregular, bytes, hread, hparse⟩, hpass⟩

/-! ## The exit code of a run -/

namespace Report

/-- The exit code of a report is zero or one. -/
theorem exitCode_eq_zero_or_one (r : Report) : r.exitCode = 0 ∨ r.exitCode = 1 := by
  rw [exitCode]
  split
  · exact .inl rfl
  · exact .inr rfl

/-- A report ends in exit code zero iff it has outcomes and all of them are passes. -/
theorem exitCode_eq_zero_iff {r : Report} :
    r.exitCode = 0 ↔ r.outcomes ≠ [] ∧ ∀ o ∈ r.outcomes, o.verdict = .pass := by
  have hpass : ∀ v : Verdict, v.isFail = false ↔ v = .pass := by
    rintro (_ | reason) <;> simp [Verdict.isFail, Verdict.reason?]
  have hnone : r.errorsCount = 0 ↔ ∀ o ∈ r.outcomes, o.verdict = .pass := by
    rw [errorsCount, failures, List.length_eq_zero_iff, List.filter_eq_nil_iff]
    simp only [Bool.not_eq_true, hpass]
  have hsome : r.filesAnalyzed ≠ 0 ↔ r.outcomes ≠ [] := by
    rw [filesAnalyzed, ne_eq, List.length_eq_zero_iff]
  rw [← hnone, ← hsome]
  simp [exitCode, isSuccess]

end Report

namespace Checker

section Outcomes

variable {F : Type} [PathFilter F] {c : Checker F} {s : FileSystem} {inputs : List Path}

/-- The candidates of a run. There are none if inputs cannot be resolved. -/
def candidates (c : Checker F) (s : FileSystem) (inputs : List Path) : List Path :=
  (s.resolve c.filter inputs).toOption.getD []

theorem candidates_of_error {failure : Failure} (h : s.resolve c.filter inputs = .error failure) :
    c.candidates s inputs = [] := by
  rw [candidates, h]
  rfl

theorem candidates_of_ok {candidates : List Path}
    (h : s.resolve c.filter inputs = .ok candidates) : c.candidates s inputs = candidates := by
  rw [Checker.candidates, h]
  rfl

/-- No candidate is there twice. -/
theorem nodup_candidates (c : Checker F) (s : FileSystem) (inputs : List Path) :
    (c.candidates s inputs).Nodup := by
  cases hresolve : s.resolve c.filter inputs with
  | error failure =>
    rw [candidates_of_error hresolve]
    exact List.nodup_nil
  | ok candidates =>
    rw [candidates_of_ok hresolve]
    exact FileSystem.nodup_of_resolve_eq_ok hresolve

/-- The outcomes of a run are what is found at its candidates. -/
theorem outcomes_run (c : Checker F) (s : FileSystem) (inputs : List Path) :
    (c.run s inputs).outcomes =
      (c.candidates s inputs).map (inspect s.toFileTree c.parser c.method) := by
  cases hresolve : s.resolve c.filter inputs with
  | error failure =>
    rw [run_of_error hresolve, candidates_of_error hresolve]
    rfl
  | ok candidates =>
    rw [candidates_of_ok hresolve]
    by_cases hsome : candidates = []
    · subst hsome
      rw [run_of_nil hresolve]
      rfl
    · rw [run_of_ok hresolve hsome]
      rfl

/-- A run has one outcome for each candidate, in the order of the candidates. -/
theorem paths_run (c : Checker F) (s : FileSystem) (inputs : List Path) :
    (c.run s inputs).outcomes.map Outcome.path = c.candidates s inputs := by
  have hpath : Outcome.path ∘ inspect s.toFileTree c.parser c.method = id := rfl
  rw [outcomes_run, List.map_map, hpath, List.map_id]

end Outcomes

/-- A run ends in exit code zero iff all inputs exist, all directories among them can be listed, there
is a candidate, and every candidate is a file that passes. -/
theorem run_exitCode_eq_zero_iff {c : Checker} {t : FileTree} {inputs : List Path} :
    (c.run t inputs).exitCode = 0 ↔
      (∀ p ∈ inputs, t.exists? p = true) ∧
        (∀ p ∈ inputs, ∀ l, t.directory? p = some l → t.fault? l = none) ∧
        (∃ p, Candidate t c.filter inputs p) ∧
        ∀ p, Candidate t c.filter inputs p → Compliant t c.parser c.method p := by
  have hscans : (∀ p ∈ inputs, ∃ files, t.scan c.filter p = .ok files) ↔
      (∀ p ∈ inputs, t.exists? p = true) ∧
        ∀ p ∈ inputs, ∀ l, t.directory? p = some l → t.fault? l = none := by
    simp only [FileTree.exists_scan_iff, forall_and]
  rw [Report.exitCode_eq_zero_iff, outcomes_run, ← and_assoc, ← hscans]
  cases hresolve : t.resolve c.filter inputs with
  | ok candidates =>
    have hmem : ∀ q, q ∈ candidates ↔ Candidate t c.filter inputs q := fun q =>
      FileTree.mem_iff_candidate hresolve
    rw [candidates_of_ok hresolve, ne_eq, List.map_eq_nil_iff, List.eq_nil_iff_forall_not_mem,
      List.forall_mem_map]
    simp only [hmem, FileTree.toFileTree_listed, inspect_verdict_eq_pass_iff, Classical.not_forall,
      Classical.not_not]
    exact (and_iff_right (FileSystem.resolve_eq_ok_iff.mp hresolve).1).symm
  | error failure =>
    -- a run whose inputs cannot be resolved has no outcomes
    rw [candidates_of_error hresolve]
    refine iff_of_false (fun h => h.1 rfl) fun h => ?_
    cases hresolve.symm.trans (FileSystem.resolve_eq_ok_iff.mpr ⟨h.1, rfl⟩)

end Checker

end MigrationLint
