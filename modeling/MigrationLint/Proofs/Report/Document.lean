import MigrationLint.Proofs.Json.RoundTrip
import MigrationLint.Report.Document

/-!
# What a report document says

The document of a report is well-formed JSON, and what it holds can be read off it again: the
numbers, the method, the inputs, each outcome in its place and why the run stopped early. Nothing of
this is lost by quoting, and no text in a report can pass for something else.

* `documentTextWith_holds`: the document holds one value, in which everything is spelled out;
* `eq_of_documentWith_eq`: reports with the same document agree on everything it says.
-/

namespace MigrationLint

namespace Json

/-! ## Looking into documents -/

/-- The string in a member of an object. -/
def textAt (name : String) (j : Json) : String :=
  match j.member? name with
  | some (string s) => s
  | _ => ""

/-- The number in a member of an object. -/
def numberAt (name : String) (j : Json) : Int :=
  match j.member? name with
  | some (number n) => n
  | _ => 0

/-- The items of a list in a member of an object. -/
def itemsAt (name : String) (j : Json) : List Json :=
  match j.member? name with
  | some (list js) => js
  | _ => []

@[simp]
theorem member?_object_nil (name : String) : (object []).member? name = none := rfl

@[simp]
theorem member?_object_cons (name name' : String) (j : Json) (ms : List (String × Json)) :
    (object ((name', j) :: ms)).member? name =
      if name' = name then some j else (object ms).member? name := by
  by_cases h : name' = name <;> simp [member?, h]

end Json

namespace Report

/-- What the document says about an outcome. -/
def outcomeMembers (method : String) (o : Outcome) : List (String × Json) :=
  match o.verdict with
  | .pass => [("path", .string o.path.text), ("status", .string "passed")]
  | .fail reason =>
    [("path", .string o.path.text), ("status", .string "failed"), ("reason", .string reason.code),
      ("message", .string (reason.message o.path method))]

theorem outcomeDocument_eq (method : String) (o : Outcome) :
    outcomeDocument method o = .object (outcomeMembers method o) := by
  rw [outcomeDocument, outcomeMembers]
  cases o.verdict <;> rfl

/-- The text of a document holds the document, and no other value. -/
theorem isTextOf_documentTextWith_iff (r : Report) (s : Summary) (j : Json) :
    Json.IsTextOf (r.documentTextWith s) j ↔ j = r.documentWith s := by
  have hblank : Json.IsBlanks "\n".toList := by decide
  have htext := Json.isTextOf_text (r.documentWith s) hblank
  exact ⟨fun hj => hj.unique htext, fun hj => hj ▸ htext⟩

theorem parse_documentTextWith (r : Report) (s : Summary) :
    Json.parse (r.documentTextWith s) = some (r.documentWith s) :=
  Json.parse_of_isTextOf ((isTextOf_documentTextWith_iff r s _).mpr rfl)

/-- What a report says about a file: where it is, whether it failed, and if so why. -/
def told (method : String) (o : Outcome) : String × Bool × Option String × Option String :=
  (o.path.text, o.verdict.isFail, o.verdict.reason?.map Reason.code,
    o.verdict.reason?.map fun reason => reason.message o.path method)

/-- What a result in a document says about a file. -/
def toldBy (x : Json) : String × Bool × Option String × Option String :=
  (x.textAt "path", x.textAt "status" == "failed",
    (x.member? "reason").map fun _ => x.textAt "reason",
    (x.member? "message").map fun _ => x.textAt "message")

theorem toldBy_outcomeDocument (method : String) (o : Outcome) :
    toldBy (outcomeDocument method o) = told method o := by
  rw [outcomeDocument_eq, outcomeMembers, told, toldBy]
  cases o.verdict <;> simp [Json.textAt, Verdict.isFail, Verdict.reason?]

/-- Reports with the same document agree on everything that it says. -/
theorem eq_of_documentWith_eq {r r' : Report} {s s' : Summary}
    (h : r.documentWith s = r'.documentWith s') :
    s = s' ∧ r.method = r'.method ∧ r.searched.map Path.text = r'.searched.map Path.text ∧
      r.outcomes.map (told r.method) = r'.outcomes.map (told r'.method) ∧
      r.abortMessage? = r'.abortMessage? := by
  simp only [documentWith, Summary.document, Json.strings, List.cons_append, List.nil_append,
    Json.object.injEq, List.cons.injEq, Prod.mk.injEq, true_and, and_true, Json.number.injEq,
    Json.string.injEq, Json.list.injEq, Int.natCast_inj] at h
  obtain ⟨⟨hfiles, herrors, hexit⟩, hmethod, hsearched, hresults, habort⟩ := h
  refine ⟨?_, hmethod, ?_, ?_, ?_⟩
  · cases s
    cases s'
    simp_all
  · exact List.map_injective_iff.mpr (fun _ _ => Json.string.inj) hsearched
  · -- what is told about a file can be read off its result
    simpa only [List.map_map, Function.comp_def, toldBy_outcomeDocument] using
      congrArg (List.map toldBy) hresults
  · cases habort₁ : r.abortMessage? <;> cases habort₂ : r'.abortMessage? <;>
      simp_all [optionalMember]

/-- A report is emitted as well-formed JSON, and the text holds one value only: the object with the
numbers, the method, the inputs in order, one result for each outcome in order, with a reason and a
message if it failed, and an error if the run stopped early. Reading the text gives this object, so
reports that are emitted alike agree on all of it. -/
theorem documentTextWith_holds (r : Report) (s : Summary) :
    (∃ d : Json,
      d = .object (
        [("summary", .object
          [("files_analyzed", .number s.filesAnalyzed), ("errors_count", .number s.errorsCount),
            ("exit_code", .number s.exitCode)]),
          ("method", .string r.method),
          ("searched_paths", .list (r.searched.map fun p => .string p.text)),
          ("results", .list (r.outcomes.map fun o => .object (
            match o.verdict with
            | .pass => [("path", .string o.path.text), ("status", .string "passed")]
            | .fail reason =>
              [("path", .string o.path.text), ("status", .string "failed"),
                ("reason", .string reason.code),
                ("message", .string (reason.message o.path r.method))])))] ++
        match r.abort with
        | none => []
        | some abort => [("error", .string (abort.message r.searched))]) ∧
      Json.parse (r.documentTextWith s) = some d ∧
      ∀ j, Json.IsTextOf (r.documentTextWith s) j ↔ j = d) ∧
    ∀ (r' : Report) (s' : Summary), r.documentTextWith s = r'.documentTextWith s' →
      s = s' ∧ r.method = r'.method ∧ r.searched.map Path.text = r'.searched.map Path.text ∧
        r.outcomes.map (told r.method) = r'.outcomes.map (told r'.method) ∧
        r.abortMessage? = r'.abortMessage? := by
  refine ⟨⟨r.documentWith s, ?_, parse_documentTextWith r s, isTextOf_documentTextWith_iff r s⟩, ?_⟩
  · have hresults : outcomeDocument r.method = fun o => .object (outcomeMembers r.method o) :=
      funext (outcomeDocument_eq r.method)
    rw [documentWith, hresults, Json.strings, List.map_map, abortMessage?]
    cases r.abort <;> rfl
  · intro r' s' htext
    have hparse := parse_documentTextWith r s
    rw [htext, parse_documentTextWith] at hparse
    exact eq_of_documentWith_eq (Option.some.inj hparse).symm

/-- A report on a path with a quote, a backslash, a line feed and an escape character. -/
def awkwardReport : Report :=
  .completed [⟨"a\"b\\c\n\x1b"⟩] "down" [⟨⟨"a\"b\\c\n\x1b"⟩, .fail .notAFile⟩]

/-- Its numbers are those that follow from the outcomes, as the text tells. -/
theorem awkwardReport_holds :
    awkwardReport.documentTextWith ⟨1, 1, 1⟩ = awkwardReport.documentText ∧
      ⟨1, 1, 1⟩ = awkwardReport.summary := by
  have htext : awkwardReport.documentTextWith ⟨1, 1, 1⟩ =
      awkwardReport.documentTextWith awkwardReport.summary := rfl
  exact ⟨htext, ((documentTextWith_holds awkwardReport ⟨1, 1, 1⟩).2 _ _ htext).1⟩

end Report

end MigrationLint
