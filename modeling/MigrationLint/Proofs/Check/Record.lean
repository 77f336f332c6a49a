import MigrationLint.Check.Execution
import MigrationLint.Proofs.Check.Pool
import MigrationLint.Proofs.Check.Run

/-!
# What the record of a run accounts for

The numbers of a report are counted once and recorded beside it. This file shows that they always fit
the outcomes, that no candidate is without an outcome, and that a run that stops early says why.

* `Report.Split`: failures and passes share out the outcomes of a report;
* `Record.Tallied`: the numbers of a record are those of its outcomes;
* `Checker.Ends`: the three ways in which a run ends;
* `Checker.Accounts`: what a record says about the run that ends in it;
* `Checker.every_record_accounts`: this holds of all runs, and all of them end in a record.
-/

namespace MigrationLint

/-! ## Outcomes -/

/-- A verdict is a failure iff it is no pass, -/
theorem Verdict.isFail_eq (v : Verdict) : v.isFail = decide (v ≠ .pass) := by
  cases v with
  | pass => rfl
  | fail reason => rfl

/-- and a pass iff it is no failure. -/
theorem Verdict.isPass_eq_not_isFail (v : Verdict) : v.isPass = !v.isFail := by
  cases v with
  | pass => rfl
  | fail reason => rfl

namespace Report

/-- The failures and the passes of a report share out its outcomes, both in their order. -/
structure Split (r : Report) : Prop where
  failures_sublist : r.failures.Sublist r.outcomes
  passes_sublist : r.passes.Sublist r.outcomes
  mem_failures : ∀ o, o ∈ r.failures ↔ o ∈ r.outcomes ∧ o.verdict ≠ .pass
  mem_passes : ∀ o, o ∈ r.passes ↔ o ∈ r.outcomes ∧ o.verdict = .pass
  perm : (r.failures ++ r.passes).Perm r.outcomes

/-- Every report is split this way. -/
theorem split (r : Report) : r.Split where
  failures_sublist := List.filter_sublist
  passes_sublist := List.filter_sublist
  mem_failures o := by
    rw [failures, List.mem_filter, Verdict.isFail_eq, decide_eq_true_eq]
  mem_passes o := by
    rw [passes, List.mem_filter, Verdict.isPass_eq_not_isFail, Verdict.isFail_eq]
    simp
  perm := by
    -- the passes are what a filter for failures leaves out
    unfold failures passes
    simp only [Verdict.isPass_eq_not_isFail]
    exact List.filter_append_perm _ _

/-- The numbers that a report is counted to say later are those that are counted when it is made. -/
theorem summary_eq_ofOutcomes (r : Report) : r.summary = .ofOutcomes r.outcomes := by
  have hcode : (r.exitCode : Int) = if r.filesAnalyzed = 0 ∨ 0 < r.errorsCount then 1 else 0 := by
    -- the report asks whether a run succeeds, the record whether it fails
    have hsuccess : r.isSuccess = true ↔ ¬(r.filesAnalyzed = 0 ∨ 0 < r.errorsCount) := by
      simp [isSuccess]
    unfold exitCode
    by_cases hfail : r.filesAnalyzed = 0 ∨ 0 < r.errorsCount
    · rw [if_pos hfail, if_neg (mt hsuccess.mp (not_not.mpr hfail))]
      rfl
    · rw [if_neg hfail, if_pos (hsuccess.mpr hfail)]
      rfl
  rw [summary, hcode]
  rfl

end Report

/-! ## Numbers -/

namespace Record

variable {r : Record}

/-- The numbers of a record are those of its outcomes. -/
structure Tallied (r : Record) : Prop where
  /-- What has been recorded is what the report would be counted to say now. -/
  recorded : r.summary = r.report.summary
  files : r.summary.filesAnalyzed = r.report.outcomes.length
  errors : r.summary.errorsCount = r.report.outcomes.countP fun o => o.verdict ≠ .pass
  errors_le : r.summary.errorsCount ≤ r.summary.filesAnalyzed
  exitCode : r.exitCode = 0 ↔ 0 < r.summary.filesAnalyzed ∧ r.summary.errorsCount = 0
  exitCode_eq : r.exitCode = 0 ∨ r.exitCode = 1
  wantsExample : r.wantsExample = true ↔ 0 < r.summary.errorsCount

/-- A record fits its outcomes if its numbers have been counted over them. Those of a run that stops
early are counted over no outcomes. -/
theorem tallied_of_summary_eq (h : r.summary = .ofOutcomes r.report.outcomes) : r.Tallied := by
  have hfiles : r.summary.filesAnalyzed = r.report.outcomes.length := by
    rw [h]
    rfl
  have hfailures : r.summary.errorsCount = r.report.failures.length := by
    rw [h]
    rfl
  have hcode : r.exitCode =
      if r.summary.filesAnalyzed = 0 ∨ 0 < r.summary.errorsCount then 1 else 0 := by
    rw [exitCode, h]
    rfl
  have herrors : r.summary.errorsCount = r.report.outcomes.countP fun o => o.verdict ≠ .pass := by
    rw [hfailures, Report.failures, List.countP_eq_length_filter]
    simp only [Verdict.isFail_eq]
  refine ⟨h.trans r.report.summary_eq_ofOutcomes.symm, hfiles, herrors, ?_, ?_, ?_, ?_⟩
  · rw [herrors, hfiles]
    exact List.countP_le_length
  · rw [hcode]
    -- the code is one if there are no files or some failures, and zero otherwise
    split
    · next hfail => exact iff_of_false (by decide) (by omega)
    · next hfail => exact iff_of_true rfl (by omega)
  · rw [hcode]
    split
    · exact .inr rfl
    · exact .inl rfl
  · rw [Record.wantsExample, decide_eq_true_eq]

end Record

/-! ## Reasons to stop -/

/-- A run is aborted for a missing path only if one is missing. -/
theorem Abort.ofFailure_eq_pathNotFound_iff {failure : Failure} {p : Path} :
    Abort.ofFailure failure = .pathNotFound p ↔ failure = .pathNotFound p := by
  cases failure <;> simp [Abort.ofFailure]

/-- No failure is taken for a lack of migrations. -/
theorem Abort.ofFailure_ne_noMigrations (failure : Failure) :
    Abort.ofFailure failure ≠ .noMigrations := by
  cases failure <;> simp [Abort.ofFailure]

/-! ## Runs -/

namespace Checker

variable {F : Type} [PathFilter F] {c : Checker F} {s : FileSystem} {inputs : List Path} {r : Record}

/-- How a run ends. -/
inductive Ends (c : Checker F) (s : FileSystem) (inputs : List Path) : Record → Prop
  /-- The inputs cannot be resolved. -/
  | unresolved {failure : Failure} (hresolve : s.resolve c.filter inputs = .error failure) :
    Ends c s inputs (.of (.aborted inputs c.method (.ofFailure failure)))
  /-- There is nothing to check. -/
  | empty (hresolve : s.resolve c.filter inputs = .ok []) :
    Ends c s inputs (.of (.aborted inputs c.method .noMigrations))
  /-- Every candidate has been checked. -/
  | checked {candidates : List Path} (hresolve : s.resolve c.filter inputs = .ok candidates)
      (hsome : candidates ≠ []) :
    Ends c s inputs
      (.of (.completed inputs c.method (candidates.map (inspect s.toFileTree c.parser c.method))))

/-- A run that checks its candidates one after another ends in one of these ways. -/
theorem ends_run (c : Checker F) (s : FileSystem) (inputs : List Path) :
    c.Ends s inputs (.of (c.run s inputs)) := by
  cases hresolve : s.resolve c.filter inputs with
  | error failure =>
    rw [run_of_error hresolve]
    exact .unresolved hresolve
  | ok candidates =>
    by_cases hsome : candidates = []
    · subst hsome
      rw [run_of_nil hresolve]
      exact .empty hresolve
    · rw [run_of_ok hresolve hsome]
      exact .checked hresolve hsome

/-- However a run ends, its report is the one that it comes to. -/
theorem Ends.report_eq (h : c.Ends s inputs r) : r.report = c.run s inputs := by
  cases h with
  | unresolved hresolve => exact (run_of_error hresolve).symm
  | empty hresolve => exact (run_of_nil hresolve).symm
  | checked hresolve hsome => exact (run_of_ok hresolve hsome).symm

/-- Whoever checks the candidates and in whatever order, a run ends in the record of the report that
it comes to when it checks them one after another. -/
theorem endsIn_iff : c.EndsIn s inputs r ↔ r = .of (c.run s inputs) := by
  constructor
  · rintro ⟨workers, schedule, hrecord⟩
    obtain ⟨result, hresult, rfl⟩ := Option.map_eq_some_iff.mp hrecord
    rw [runUnder_eq hresult]
  · rintro rfl
    obtain ⟨schedule, result, hresult⟩ := exists_runUnder_eq_some c s Nat.one_pos inputs
    refine ⟨1, schedule, Option.map_eq_some_iff.mpr ⟨result, hresult, ?_⟩⟩
    rw [runUnder_eq hresult]

/-- Every run ends in a record. -/
theorem exists_endsIn (c : Checker F) (s : FileSystem) (inputs : List Path) :
    ∃ r, c.EndsIn s inputs r :=
  ⟨_, endsIn_iff.mpr rfl⟩

/-- Whatever a run can end in, it ends in one of these ways. -/
theorem EndsIn.ends (h : c.EndsIn s inputs r) : c.Ends s inputs r :=
  endsIn_iff.mp h ▸ c.ends_run s inputs

/-- What a record says about the run that ends in it. -/
structure Accounts (c : Checker F) (s : FileSystem) (inputs : List Path) (r : Record) : Prop where
  searched : r.report.searched = inputs
  method : r.report.method = c.method
  /-- A run stops early iff it has no outcomes. -/
  abort : r.report.abort ≠ none ↔ r.report.outcomes = []
  nothing : r.report.outcomes = [] ↔ r.summary.filesAnalyzed = 0
  /-- There is one outcome for each candidate, in the order of the candidates. -/
  candidates : r.report.abort = none →
    s.resolve c.filter inputs = .ok (r.report.outcomes.map Outcome.path)
  /-- An outcome is what is found at its path. -/
  found : ∀ o ∈ r.report.outcomes, o = inspect s.toFileTree c.parser c.method o.path
  tallied : r.Tallied
  split : r.report.Split
  /-- The input that is reported as missing is the first one that is. -/
  missing : ∀ p, r.report.abort = some (.pathNotFound p) ↔ s.FirstMissing inputs p
  /-- There are no migrations iff all inputs exist and stand for nothing. -/
  empty : r.report.abort = some .noMigrations ↔
    (∀ p ∈ inputs, s.exists? p = true) ∧ s.resolve c.filter inputs = .ok []

/-- A record of a run that stops early accounts for it if the reason is right. -/
theorem accounts_of_aborted {abort : Abort}
    (hmissing : ∀ p, abort = .pathNotFound p ↔ s.FirstMissing inputs p)
    (hempty : abort = .noMigrations ↔ s.resolve c.filter inputs = .ok []) :
    c.Accounts s inputs (.of (.aborted inputs c.method abort)) where
  searched := rfl
  method := rfl
  abort := iff_of_true nofun rfl
  nothing := iff_of_true rfl rfl
  candidates := nofun
  found := nofun
  tallied := Record.tallied_of_summary_eq rfl
  split := Report.split _
  missing p := Option.some_inj.trans (hmissing p)
  empty := by
    -- inputs that resolve to anything exist
    refine Option.some_inj.trans (hempty.trans ?_)
    exact ⟨fun hok => ⟨FileSystem.exists?_of_resolve_eq_ok hok, hok⟩, And.right⟩

/-- A record of a run that checks its candidates accounts for it. -/
theorem accounts_of_checked {candidates : List Path}
    (hresolve : s.resolve c.filter inputs = .ok candidates) (hsome : candidates ≠ []) :
    c.Accounts s inputs
      (.of (.completed inputs c.method (candidates.map (inspect s.toFileTree c.parser c.method)))) where
  searched := rfl
  method := rfl
  abort := by
    refine iff_of_false (fun h => h rfl) fun hnil => ?_
    exact hsome (List.map_eq_nil_iff.mp hnil)
  nothing := List.length_eq_zero_iff.symm
  candidates _ := by
    -- an outcome has the path of its candidate, whatever the verdict is
    have hpath : Outcome.path ∘ inspect s.toFileTree c.parser c.method = id := rfl
    rw [hresolve]
    simp only [Record.of, Report.completed]
    rw [List.map_map, hpath, List.map_id]
  found := by
    intro o ho
    obtain ⟨p, -, rfl⟩ := List.mem_map.mp ho
    rfl
  tallied := Record.tallied_of_summary_eq rfl
  split := Report.split _
  missing p := by
    rw [← FileSystem.resolve_eq_pathNotFound_iff (f := c.filter), hresolve]
    exact iff_of_false (by simp [Record.of, Report.completed]) (by simp)
  empty := by
    refine iff_of_false (by simp [Record.of, Report.completed]) ?_
    rintro ⟨-, hempty⟩
    exact hsome (Except.ok.inj (hresolve.symm.trans hempty))

/-- However a run ends, its record accounts for it. -/
theorem Ends.accounts (h : c.Ends s inputs r) : c.Accounts s inputs r := by
  have hfirst : ∀ p, s.resolve c.filter inputs = .error (.pathNotFound p) ↔
      s.FirstMissing inputs p := fun p => FileSystem.resolve_eq_pathNotFound_iff
  cases h with
  | @unresolved failure hresolve =>
    rw [hresolve] at hfirst
    refine accounts_of_aborted (fun p => ?_) ?_
    · rw [← hfirst, Except.error.injEq, Abort.ofFailure_eq_pathNotFound_iff]
    · -- no failure is taken for a lack of migrations
      rw [hresolve]
      exact iff_of_false (Abort.ofFailure_ne_noMigrations failure) nofun
  | empty hresolve =>
    rw [hresolve] at hfirst
    refine accounts_of_aborted (fun p => ?_) (iff_of_true rfl hresolve)
    rw [← hfirst]
    exact iff_of_false nofun nofun
  | checked hresolve hsome => exact accounts_of_checked hresolve hsome

/-- Every run ends in a record, and every record that a run can end in accounts for it. Its report is
that of checking the candidates one after another. -/
theorem every_record_accounts (c : Checker F) (s : FileSystem) (inputs : List Path) :
    (∃ r, c.EndsIn s inputs r) ∧
    ∀ r, c.EndsIn s inputs r → c.Accounts s inputs r ∧ r.report = c.run s inputs := by
  exact ⟨exists_endsIn c s inputs, fun r hends => ⟨hends.ends.accounts, hends.ends.report_eq⟩⟩

end Checker

/-- A directory with files of all kinds, and a directory that is not listed. -/
def mixedSystem : FileSystem where
  entries := [(["db"], .directory), (["db", "a.php"], .file [60]), (["db", "b.php"], .file []),
    (["db", "c.php"], .broken .inputOutput), (["db", "d.php"], .directory),
    (["private"], .directory)]
  list
    | ["db"] => .ok ["a.php", "b.php", "c.php", "d.php"]
    | ["private"] => .error .permissionDenied
    | _ => .ok []

/-- A checker whose parser rejects empty texts and finds a rollback method in all others. -/
def rejectsEmpty : Checker where
  filter := ⟨".php", []⟩
  method := "down"
  parser := fun _ text =>
    if text.isEmpty then .error ⟨"empty file", none⟩
    else .ok ⟨[⟨.method, some "down", 1, [⟨.throw, none, 1, []⟩]⟩]⟩
  parallel := false

/-- A file that passes is checked along with files that are rejected, cannot be read or are no files.
A directory that is not listed stops a run, unless an input is missing, which stops it before that. -/
theorem mixedSystem_every_record_accounts :
    (∃ r, rejectsEmpty.EndsIn mixedSystem [⟨"db/"⟩] r ∧
      rejectsEmpty.Accounts mixedSystem [⟨"db/"⟩] r ∧ r.summary = ⟨4, 3, 1⟩) ∧
    (∃ r, rejectsEmpty.EndsIn mixedSystem [⟨"db"⟩, ⟨"private"⟩] r ∧
      rejectsEmpty.Accounts mixedSystem [⟨"db"⟩, ⟨"private"⟩] r ∧
      r.report.abort = some (.scanFailed
        "IO error: IO error for operation on private: Permission denied (os error 13)")) ∧
    ∃ r, rejectsEmpty.EndsIn mixedSystem [⟨"private"⟩, ⟨"none"⟩] r ∧
      r.report = rejectsEmpty.run mixedSystem [⟨"private"⟩, ⟨"none"⟩] ∧
      r.report.abort = some (.pathNotFound ⟨"none"⟩) := by
  -- the checker is not parallel, so that an empty schedule will do
  have hmixed := rejectsEmpty.every_record_accounts mixedSystem
  have hchecked : rejectsEmpty.EndsIn mixedSystem [⟨"db/"⟩] _ := ⟨1, [], rfl⟩
  have hunlisted : rejectsEmpty.EndsIn mixedSystem [⟨"db"⟩, ⟨"private"⟩] _ := ⟨1, [], rfl⟩
  have hmissing : rejectsEmpty.EndsIn mixedSystem [⟨"private"⟩, ⟨"none"⟩] _ := ⟨1, [], rfl⟩
  exact ⟨⟨_, hchecked, ((hmixed _).2 _ hchecked).1, by decide +kernel⟩,
    ⟨_, hunlisted, ((hmixed _).2 _ hunlisted).1, by decide +kernel⟩,
    ⟨_, hmissing, ((hmixed _).2 _ hmissing).2, by decide +kernel⟩⟩

end MigrationLint
