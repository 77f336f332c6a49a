import Mathlib.Data.List.Forall2
import MigrationLint.Proofs.Report.Document
import MigrationLint.Report.Text

/-!
# Text and document of a report agree

A report as text can be put together from the report as a document, without the report itself: both
forms say the same, in whatever order the text groups it.

* `Json.reportText`: the text that a document calls for;
* `text_eq_reportText`: it is the text of the report.
-/

namespace MigrationLint

namespace Json

/-- The results in a document that have a given status, in order. -/
def resultsWith (status : String) (d : Json) : List Json :=
  (d.itemsAt "results").filter fun x => x.textAt "status" == status

/-- The number with a given name in the summary of a document. -/
def count (name : String) (d : Json) : Int :=
  ((d.member? "summary").getD null).numberAt name

/-- The text that the document of a report calls for, without colour: the error if there is one, and
otherwise the messages of the failures, the paths of the passes if they are asked for, the counts,
and an example for the method if it is asked for and there are errors. -/
def reportText (verbosity : Nat) (showExample : Bool) (d : Json) : String :=
  if (d.member? "error").isSome then d.textAt "error" ++ "\n"
  else
    String.join ((d.resultsWith "failed").map fun x => x.textAt "message" ++ "\n") ++
      (if 1 ≤ verbosity then
        String.join ((d.resultsWith "passed").map fun x =>
          "✓ Migration `" ++ x.textAt "path" ++ "` is irreversible\n")
      else "") ++
      ("--------------------\n" ++
        "Files analyzed: " ++ toString (d.count "files_analyzed") ++ "\n" ++
        "Errors count: " ++ toString (d.count "errors_count") ++ "\n") ++
      if showExample = true ∧ 0 < d.count "errors_count" then
        "--------------------\n" ++
          "Each irreversible migration file should have following code:\n\n" ++
          exampleMethod (d.textAt "method")
      else ""

end Json

namespace Report

/-! ## What a document says -/

/-- A result in a document is the one for an outcome. -/
structure ResultOf (o : Outcome) (x : Json) : Prop where
  path : x.textAt "path" = o.path.text
  status : x.textAt "status" = if o.verdict.isFail then "failed" else "passed"
  reason : (x.member? "reason").isSome = true ↔ x.textAt "status" = "failed"
  message : (x.member? "message").isSome = true ↔ x.textAt "status" = "failed"

/-- The document of an outcome is a result for it. -/
theorem resultOf_outcomeDocument (method : String) (o : Outcome) :
    ResultOf o (outcomeDocument method o) := by
  rw [outcomeDocument_eq, outcomeMembers]
  cases hverdict : o.verdict <;>
    constructor <;> simp [Json.textAt, hverdict, Verdict.isFail, Verdict.reason?]

variable (r : Report)

/-- A document has an error iff the run was aborted, and it is the message. -/
theorem member?_error_document :
    r.document.member? "error" = r.abortMessage?.map Json.string := by
  cases h : r.abortMessage? <;> simp [document, documentWith, optionalMember, h]

/-- A document has a result for each outcome, in their order. -/
theorem itemsAt_results_document :
    r.document.itemsAt "results" = r.outcomes.map (outcomeDocument r.method) := by
  simp [document, documentWith, Json.itemsAt]

/-- A document names the method. -/
theorem textAt_method_document : r.document.textAt "method" = r.method := by
  simp [document, documentWith, Json.textAt]

/-- The first number in a document is that of the files. -/
theorem count_filesAnalyzed_document : r.document.count "files_analyzed" = r.filesAnalyzed := by
  simp [document, documentWith, summary, Summary.document, Json.count, Json.numberAt]

/-- The second number in a document is that of the errors. -/
theorem count_errorsCount_document : r.document.count "errors_count" = r.errorsCount := by
  simp [document, documentWith, summary, Summary.document, Json.count, Json.numberAt]

/-- The results with a status are those for the outcomes that have it. -/
theorem resultsWith_document {status : String} {keep : Outcome → Bool}
    (hkeep : ∀ o, ((if o.verdict.isFail then "failed" else "passed") == status) = keep o) :
    r.document.resultsWith status = (r.outcomes.filter keep).map (outcomeDocument r.method) := by
  rw [Json.resultsWith, itemsAt_results_document, List.filter_map]
  congr 2
  funext o
  rw [Function.comp_apply, (resultOf_outcomeDocument r.method o).status, hkeep]

/-- The failed results are those for the failures. -/
theorem resultsWith_failed_document :
    r.document.resultsWith "failed" = r.failures.map (outcomeDocument r.method) :=
  r.resultsWith_document fun o => by cases o.verdict <;> rfl

/-- The passed results are those for the passes. -/
theorem resultsWith_passed_document :
    r.document.resultsWith "passed" = r.passes.map (outcomeDocument r.method) :=
  r.resultsWith_document fun o => by cases o.verdict <;> rfl

/-! ## The text -/

/-- The line for a failure is the message in its result. -/
theorem failureLine_eq {o : Outcome} {v : View} (hcolour : v.colour = false) (method : String)
    (hfail : o.verdict.isFail = true) :
    v.failureLine method o = (outcomeDocument method o).textAt "message" ++ "\n" := by
  rw [outcomeDocument_eq, outcomeMembers, View.failureLine]
  cases hverdict : o.verdict with
  | pass =>
    rw [hverdict] at hfail
    exact absurd hfail Bool.false_ne_true
  | fail reason => simp [Verdict.reason?, Style.paint, hcolour, Json.textAt]

/-- The line for a pass has the path in its result. -/
theorem passLine_eq {v : View} (hcolour : v.colour = false) (method : String) (o : Outcome) :
    v.passLine o =
      "✓ Migration `" ++ (outcomeDocument method o).textAt "path" ++ "` is irreversible\n" := by
  simp [View.passLine, Style.paint, hcolour, (resultOf_outcomeDocument method o).path,
    String.append_assoc]

/-- The lines with the numbers have those of the document. -/
theorem summary_eq {v : View} (hcolour : v.colour = false) :
    v.summary r = "--------------------\n" ++
      "Files analyzed: " ++ toString (r.document.count "files_analyzed") ++ "\n" ++
      "Errors count: " ++ toString (r.document.count "errors_count") ++ "\n" := by
  rw [count_filesAnalyzed_document, count_errorsCount_document, View.summary, hcolour]
  rfl

/-- The example is for the method in the document. -/
theorem exampleLines_eq {v : View} (hcolour : v.colour = false) :
    v.exampleLines r.method = "--------------------\n" ++
      "Each irreversible migration file should have following code:\n\n" ++
      exampleMethod (r.document.textAt "method") := by
  rw [textAt_method_document, View.exampleLines, hcolour]
  rfl

/-- The text of a report without colour is the one that its document calls for. -/
theorem text_eq_reportText (verbosity : Nat) (showExample : Bool) :
    r.text ⟨false, 1 ≤ verbosity, showExample⟩ = r.document.reportText verbosity showExample := by
  rw [text, Json.reportText, member?_error_document]
  cases habort : r.abortMessage? with
  | some message =>
    have herror : r.document.textAt "error" = message := by
      simp [Json.textAt, member?_error_document, habort]
    simp [Style.paint, herror]
  | none =>
    have hfailures :
        r.failures.map (View.failureLine ⟨false, 1 ≤ verbosity, showExample⟩ r.method) =
        (r.document.resultsWith "failed").map fun x => x.textAt "message" ++ "\n" := by
      rw [resultsWith_failed_document, List.map_map]
      exact List.map_congr_left fun o ho => failureLine_eq rfl _ (List.mem_filter.mp ho).2
    have hpasses : r.passes.map (View.passLine ⟨false, 1 ≤ verbosity, showExample⟩) =
        (r.document.resultsWith "passed").map fun x =>
          "✓ Migration `" ++ x.textAt "path" ++ "` is irreversible\n" := by
      rw [resultsWith_passed_document, List.map_map]
      exact List.map_congr_left fun o _ => passLine_eq rfl r.method o
    have hexample : (showExample && r.wantsExample) = true ↔
        showExample = true ∧ 0 < r.document.count "errors_count" := by
      rw [Bool.and_eq_true, wantsExample, decide_eq_true_iff, count_errorsCount_document,
        Int.natCast_pos]
    dsimp only [Option.map_none, Option.isSome_none]
    rw [if_neg Bool.false_ne_true, hfailures, hpasses, r.summary_eq rfl,
      r.exampleLines_eq rfl]
    simp only [hexample, decide_eq_true_eq]

/-- Text and document of a report say the same, for every verbosity and whether or not an example is
asked for. The document has an error iff the run stopped early, one result for each outcome in
order, and the number of results that failed. -/
theorem text_agrees_with_document (verbosity : Nat) (showExample : Bool) :
    ∃ d, Json.parse r.documentText = some d ∧
      r.text ⟨false, 1 ≤ verbosity, showExample⟩ = d.reportText verbosity showExample ∧
      ((d.member? "error").isSome = true ↔ ∃ abort, r.abort = some abort) ∧
      List.Forall₂ ResultOf r.outcomes (d.itemsAt "results") ∧
      d.count "files_analyzed" = (d.itemsAt "results").length ∧
      d.count "errors_count" = (d.resultsWith "failed").length := by
  refine ⟨r.document, parse_documentTextWith r r.summary, r.text_eq_reportText _ _, ?_, ?_, ?_, ?_⟩
  · rw [member?_error_document, abortMessage?]
    cases r.abort <;> simp
  · rw [itemsAt_results_document, List.forall₂_map_right_iff]
    exact List.forall₂_same.mpr fun o _ => resultOf_outcomeDocument r.method o
  · rw [count_filesAnalyzed_document, itemsAt_results_document, List.length_map, filesAnalyzed]
  · rw [count_errorsCount_document, resultsWith_failed_document, List.length_map, errorsCount]

end Report

end MigrationLint
