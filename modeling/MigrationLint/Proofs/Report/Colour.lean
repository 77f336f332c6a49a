import MigrationLint.Diagnostics
import MigrationLint.Proofs.Text.Escapes
import MigrationLint.Report.Record

/-!
# Colour leaves no trace

A report and a diagnostic may be coloured. Once the escape sequences are deleted from the coloured text
and from the other one, both are the same, whatever sequences or parts of sequences are in the paths,
messages and names that they tell of.

* `Report.fades_textWith`, `Diagnostic.fades_text`: colour does not show in a text that is erased;
* `Report.isPlain_textWith`, `Diagnostic.isPlain_text`: which texts there is nothing to delete from;
* `colour_leaves_no_trace`: both together.
-/

namespace MigrationLint

open Style

/-! ## What texts are made up of -/

/-- What a reason tells in the words of somebody else. -/
def Reason.texts : Reason → List String
  | unreadable message | unparsable message => [message]
  | _ => []

/-- The sentence about a reason has no more of these characters than what it is put together from. -/
theorem Reason.lacks_message (reason : Reason) {cs : List Char} (hcs : cs ⊆ Text.controls) {path : Path}
    {method : String} (hpath : Text.Lacks cs path.text) (hmethod : Text.Lacks cs method)
    (h : ∀ x ∈ reason.texts, Text.Lacks cs x) : Text.Lacks cs (reason.message path method) := by
  have hfixed : ∀ {x}, Text.Lacks Text.controls x → Text.Lacks cs x := Text.Lacks.mono hcs
  have hlead : Text.Lacks cs "Migration `" := hfixed (by decide)
  have hstart := hlead.append hpath
  cases reason with
  | notAFile | emptyBody => exact hstart.append (hfixed (by decide))
  | unreadable message | unparsable message =>
    have hmessage := h message (List.mem_singleton.mpr rfl)
    exact (hstart.append (hfixed (by decide))).append hmessage
  | missingMethod | notSoleThrow =>
    exact ((hstart.append (hfixed (by decide))).append hmethod).append (hfixed (by decide))

/-- The path and the words of others in an outcome. -/
def Outcome.texts (o : Outcome) : List String :=
  o.path.text :: o.verdict.reason?.toList.flatMap Reason.texts

/-- The path or the words of others in the reason why a run stopped early. -/
def Abort.texts : Abort → List String
  | pathNotFound path => [path.text]
  | scanFailed message => [message]
  | noMigrations => []

/-- The method, the paths and the messages in a report. -/
def Report.texts (r : Report) : List String :=
  r.method :: r.searched.map Path.text ++ r.outcomes.flatMap Outcome.texts ++
    r.abort.toList.flatMap Abort.texts

/-- The parts of a diagnostic. -/
def Diagnostic.texts : Diagnostic → List String
  | error heading message detail suggestion =>
    heading :: message :: detail.toList ++ suggestion.toList
  | warning message detail => message :: detail.toList

namespace Report

/-! ## Reports -/

section Fading

variable (listPasses showExample : Bool)

/-- The line for a failure fades. -/
theorem fades_failureLine (method : String) (o : Outcome) :
    Fades fun colour => View.failureLine ⟨colour, listPasses, showExample⟩ method o := by
  unfold View.failureLine
  cases o.verdict.reason? with
  | none => exact fades_of_isPlain isPlain_empty
  | some reason => exact fades_paint_line (by decide) _

/-- The line for a pass fades. -/
theorem fades_passLine (o : Outcome) :
    Fades fun colour => View.passLine ⟨colour, listPasses, showExample⟩ o :=
  fades_paint_line (by decide) _

/-- The words around the number of files are plain. -/
theorem isPlain_counts (files : Nat) :
    IsPlain (View.separator ++ "Files analyzed: " ++ toString files ++ "\n" ++ "Errors count: ") := by
  have hseparator : IsPlain View.separator := isPlain_ofList (by decide)
  have hfiles : IsPlain "Files analyzed: " := isPlain_ofList (by decide)
  have herrors : IsPlain "Errors count: " := isPlain_ofList (by decide)
  exact (((hseparator.append hfiles).append (isPlain_toString files)).append isPlain_line).append
    herrors

/-- The lines with the numbers fade, whatever the numbers are. -/
theorem fades_summaryWith (s : Summary) :
    Fades fun colour => View.summaryWith ⟨colour, listPasses, showExample⟩ s := by
  have hstyle : [if s.errorsCount > 0 then Style.red else Style.green] ⊆ Style.palette := by
    split <;> decide
  have hlines := (fades_of_isPlain (isPlain_counts s.filesAnalyzed)).append
    (fades_paint_line hstyle (toString s.errorsCount))
  -- the end of the line belongs to the number before it
  simpa only [View.summaryWith, String.append_assoc] using hlines

theorem isPlain_exampleLead : IsPlain (View.separator ++
    "Each irreversible migration file should have following code:\n\n") :=
  IsPlain.append (isPlain_ofList (by decide)) (isPlain_ofList (by decide))

/-- The lines with the example fade, whatever the method is called. -/
theorem fades_exampleLines (method : String) :
    Fades fun colour => View.exampleLines ⟨colour, listPasses, showExample⟩ method := by
  -- the example ends in a line end of its own
  have hexample : IsFinished (exampleMethod method) := isFinished_append _ rfl (by decide)
  exact (fades_of_isPlain isPlain_exampleLead).append (fades_paint (by decide) hexample)

/-- The text of a report does not show whether it is coloured, once it is erased, whatever numbers it
has. -/
theorem fades_textWith (r : Report) (s : Summary) :
    Fades fun colour => r.textWith ⟨colour, listPasses, showExample⟩ s := by
  have hempty : Fades fun _ => "" := fades_of_isPlain isPlain_empty
  unfold textWith
  cases r.abortMessage? with
  | some message => exact fades_paint_line (by decide) message
  | none =>
    refine Fades.append (Fades.append (Fades.append ?failures ?passes) ?summary) ?sample
    case failures =>
      exact Fades.join fun o _ => fades_failureLine listPasses showExample r.method o
    case passes =>
      show Fades fun colour => if listPasses = true then _ else ""
      exact Fades.ite (Fades.join fun o _ => fades_passLine listPasses showExample o) hempty
    case summary => exact fades_summaryWith listPasses showExample s
    case sample =>
      show Fades fun colour => if (showExample && 0 < s.errorsCount) = true then _ else ""
      exact Fades.ite (fades_exampleLines listPasses showExample r.method) hempty

end Fading

/-! ## Reports without escape sequences -/

variable {listPasses showExample : Bool}

/-- The message for a reason is plain if the path, the method and the texts in the reason are. -/
theorem isPlain_message {reason : Reason} {path : Path} {method : String} (hpath : IsPlain path.text)
    (hmethod : IsPlain method) (h : ∀ x ∈ reason.texts, IsPlain x) :
    IsPlain (reason.message path method) := by
  simp only [isPlain_iff_lacks] at hpath hmethod h ⊢
  exact reason.lacks_message (by decide) hpath hmethod h

/-- The message of an aborted run is plain if its inputs and the texts in it are. -/
theorem isPlain_abortMessage {abort : Abort} {searched : List Path}
    (hsearched : ∀ p ∈ searched, IsPlain p.text) (h : ∀ x ∈ abort.texts, IsPlain x) :
    IsPlain (abort.message searched) := by
  have hquote : IsPlain "`" := by decide
  cases abort with
  | pathNotFound path =>
    have hpath := h path.text (List.mem_singleton.mpr rfl)
    exact (IsPlain.append (isPlain_ofList (by decide)) hpath).append (isPlain_ofList (by decide))
  | scanFailed message =>
    have hmessage := h message (List.mem_singleton.mpr rfl)
    exact IsPlain.append (isPlain_ofList (by decide)) hmessage
  | noMigrations =>
    have hquoted : ∀ x ∈ searched.map (fun p => "`" ++ p.text ++ "`"), IsPlain x :=
      List.forall_mem_map.mpr fun p hp => (hquote.append (hsearched p hp)).append hquote
    exact IsPlain.append (isPlain_ofList (by decide))
      (isPlain_intercalate (isPlain_ofList (by decide)) hquoted)

/-- The example is plain if the name of the method is. -/
theorem isPlain_exampleMethod {name : String} (hname : IsPlain name) :
    IsPlain (exampleMethod name) := by
  have hsignature : IsPlain ("public function " ++ name ++ "(): void\n\x7b\n") :=
    (IsPlain.append (isPlain_ofList (by decide)) hname).append (isPlain_ofList (by decide))
  exact hsignature.append (isPlain_ofList (by decide))

/-- The lines with the numbers are plain without colour. -/
theorem isPlain_summaryWith (s : Summary) :
    IsPlain (View.summaryWith ⟨false, listPasses, showExample⟩ s) := by
  have hlines := ((isPlain_counts s.filesAnalyzed).append (isPlain_toString s.errorsCount)).append
    isPlain_line
  simpa only [View.summaryWith, Style.paint, Bool.false_eq_true, if_false, String.append_assoc] using
    hlines

/-- If nothing that a report tells of has the character that sequences start with, neither has its
text. -/
theorem isPlain_textWith {r : Report} (h : ∀ x ∈ r.texts, IsPlain x) (s : Summary) :
    IsPlain (r.textWith ⟨false, listPasses, showExample⟩ s) := by
  simp only [texts, List.cons_append, List.forall_mem_cons, List.forall_mem_append,
    List.forall_mem_map, List.forall_mem_flatMap] at h
  obtain ⟨hmethod, ⟨hsearched, houtcomes⟩, habort⟩ := h
  unfold textWith abortMessage?
  cases hstopped : r.abort with
  | some abort =>
    exact (isPlain_abortMessage hsearched (habort abort (by simp [hstopped]))).append isPlain_line
  | none =>
    refine IsPlain.append (IsPlain.append (IsPlain.append ?failures ?passes) ?summary) ?sample
    case failures =>
      refine isPlain_join (List.forall_mem_map.mpr fun o ho => ?_)
      obtain ⟨hpath, hreason⟩ := List.forall_mem_cons.mp (houtcomes o (List.mem_filter.mp ho).1)
      unfold View.failureLine
      cases hverdict : o.verdict.reason? with
      | none => exact isPlain_empty
      | some reason =>
        rw [hverdict] at hreason
        exact (isPlain_message hpath hmethod (by simpa using hreason)).append isPlain_line
    case passes =>
      split
      · refine isPlain_join (List.forall_mem_map.mpr fun o ho => ?_)
        obtain ⟨hpath, -⟩ := List.forall_mem_cons.mp (houtcomes o (List.mem_filter.mp ho).1)
        exact ((IsPlain.append (isPlain_ofList (by decide)) hpath).append
          (isPlain_ofList (by decide))).append isPlain_line
      · exact isPlain_empty
    case summary => exact isPlain_summaryWith s
    case sample =>
      split
      · exact isPlain_exampleLead.append (isPlain_exampleMethod hmethod)
      · exact isPlain_empty

end Report

namespace Diagnostic

/-! ## Diagnostics -/

/-- The line with details fades. -/
theorem fades_detailLine (detail : Option String) :
    Fades fun colour => detailLine colour detail := by
  cases detail with
  | none => exact fades_of_isPlain isPlain_empty
  | some d =>
    have hindent : IsPlain "  " := by decide
    have hdim : [Style.dim] ⊆ Style.palette := by decide
    have hline := (fades_of_isPlain hindent).append (fades_paint_line hdim ("× " ++ d))
    simpa only [detailLine, String.append_assoc] using hline

/-- The line with a suggestion fades. -/
theorem fades_suggestionLine (suggestion : Option String) :
    Fades fun colour => suggestionLine colour suggestion := by
  cases suggestion with
  | none => exact fades_of_isPlain isPlain_empty
  | some s =>
    have hindent : IsPlain "  " := by decide
    have hcyan : [Style.cyan] ⊆ Style.palette := by decide
    have hhelp : IsFinished "help:" := isFinished_of_isPlain (by decide)
    have hrest : IsFinished (" " ++ s ++ "\n") := isFinished_append _ rfl (by decide)
    have hline := ((fades_of_isPlain hindent).append (fades_paint hcyan hhelp)).append
      (fades_of_isFinished hrest)
    simpa only [suggestionLine, String.append_assoc] using hline

/-- The text of a diagnostic does not show whether it is coloured, once it is erased. -/
theorem fades_text (d : Diagnostic) : Fades fun colour => d.text colour := by
  have hmessage : ∀ message, IsFinished (" " ++ message ++ "\n") := fun message =>
    isFinished_append _ rfl (by decide)
  cases d with
  | error heading message detail suggestion =>
    have hred : [Style.bold, Style.red] ⊆ Style.palette := by decide
    -- the colon is in no sequence, so that the heading is finished whatever it says
    have hheading : IsFinished ("✖ " ++ heading ++ ":") := isFinished_append _ rfl (by decide)
    have hfirst := (fades_paint hred hheading).append (fades_of_isFinished (hmessage message))
    have hlines := (hfirst.append (fades_detailLine detail)).append (fades_suggestionLine suggestion)
    simpa only [text, String.append_assoc] using hlines
  | warning message detail =>
    have hyellow : [Style.bold, Style.yellow] ⊆ Style.palette := by decide
    have hheading : IsFinished "⚠ Warning:" := isFinished_of_isPlain (by decide)
    have hfirst := (fades_paint hyellow hheading).append (fades_of_isFinished (hmessage message))
    have hlines := hfirst.append (fades_detailLine detail)
    simpa only [text, String.append_assoc] using hlines

/-- If the parts of a diagnostic do not have the character that sequences start with, neither has its
text. -/
theorem isPlain_text {d : Diagnostic} (h : ∀ x ∈ d.texts, IsPlain x) : IsPlain (d.text false) := by
  have hspace : IsPlain " " := by decide
  have hdetail : ∀ detail : Option String, (∀ x ∈ detail.toList, IsPlain x) →
      IsPlain (detailLine false detail) := by
    rintro (_ | x) hx
    · exact isPlain_empty
    · have hlead : IsPlain "  " := by decide
      have hmark : IsPlain "× " := by decide
      exact (hlead.append (hmark.append (hx x (List.mem_singleton.mpr rfl)))).append isPlain_line
  have hsuggestion : ∀ suggestion : Option String, (∀ x ∈ suggestion.toList, IsPlain x) →
      IsPlain (suggestionLine false suggestion) := by
    rintro (_ | x) hx
    · exact isPlain_empty
    · have hlead : IsPlain "  " := by decide
      have hhelp : IsPlain "help:" := by decide
      exact (((hlead.append hhelp).append hspace).append
        (hx x (List.mem_singleton.mpr rfl))).append isPlain_line
  cases d with
  | error heading message detail suggestion =>
    simp only [texts, List.cons_append, List.forall_mem_cons, List.forall_mem_append] at h
    obtain ⟨hheading, hmessage, hparts, hparts'⟩ := h
    have hmark : IsPlain "✖ " := by decide
    have hcolon : IsPlain ":" := by decide
    exact ((((((hmark.append hheading).append hcolon).append hspace).append hmessage).append
      isPlain_line).append (hdetail detail hparts)).append (hsuggestion suggestion hparts')
  | warning message detail =>
    obtain ⟨hmessage, hparts⟩ := List.forall_mem_cons.mp h
    have hheading : IsPlain "⚠ Warning:" := by decide
    exact (((hheading.append hspace).append hmessage).append isPlain_line).append
      (hdetail detail hparts)

end Diagnostic

namespace Failure

/-! ## Failures -/

/-- The heading for a failure is plain. -/
theorem isPlain_heading (f : Failure) : IsPlain f.heading := by
  cases f <;> exact isPlain_ofList (by decide)

/-- Suggestions are plain. -/
theorem isPlain_suggestion (f : Failure) : ∀ x ∈ f.suggestion?.toList, IsPlain x := by
  intro x hx
  -- a failure without suggestion leaves nothing to show
  cases f with
  | pathNotFound | invalidPattern | uncompiledPatterns | document =>
    obtain rfl := List.mem_singleton.mp hx
    exact isPlain_ofList (by decide)
  | settings | unreadable | file | json => cases hx

end Failure

/-- A text that is put together from others may be coloured: once the escape sequences are deleted, it
does not show, and if the others have no part of a sequence, what is left is the text without colour. -/
structure LeavesNoTrace (texts : List String) (text : Bool → String) : Prop where
  same : erase (text true) = erase (text false)
  exact : (∀ x ∈ texts, IsPlain x) → erase (text true) = text false

/-- A text that fades leaves no trace, and it is plain if what it is put together from is. -/
theorem Style.Fades.leavesNoTrace {texts : List String} {text : Bool → String} (h : Fades text)
    (hplain : (∀ x ∈ texts, IsPlain x) → IsPlain (text false)) : LeavesNoTrace texts text where
  same := h.same true
  exact htexts := by
    rw [h.same true, erase_of_isPlain (hplain htexts)]

/-- Neither a report, with whatever numbers, nor a diagnostic shows whether it has been coloured once the
escape sequences are deleted, and neither does the diagnostic that tells of a failure. -/
theorem colour_leaves_no_trace :
    (∀ (r : Report) (s : Report.Summary) (verbosity : Nat) (showExample : Bool),
      LeavesNoTrace r.texts fun colour => r.textWith ⟨colour, 1 ≤ verbosity, showExample⟩ s) ∧
    (∀ (r : Report) (verbosity : Nat) (showExample : Bool),
      LeavesNoTrace r.texts fun colour => r.text ⟨colour, 1 ≤ verbosity, showExample⟩) ∧
    (∀ d : Diagnostic, LeavesNoTrace d.texts fun colour => d.text colour) ∧
    ∀ f : Failure, LeavesNoTrace (f.message :: f.detail?.toList) fun colour =>
      (Diagnostic.ofFailure f).text colour := by
  have hreport : ∀ (r : Report) (s : Report.Summary) (verbosity : Nat) (showExample : Bool),
      LeavesNoTrace r.texts fun colour => r.textWith ⟨colour, 1 ≤ verbosity, showExample⟩ s :=
    fun r s _ showExample =>
      (r.fades_textWith _ showExample s).leavesNoTrace fun h => Report.isPlain_textWith h s
  -- the numbers of a report are those that it is counted to have, unless others are given
  refine ⟨hreport, fun r verbosity showExample => ?_, fun d => ?_, fun f => ?_⟩
  · simpa only [Report.textWith_summary] using hreport r r.summary verbosity showExample
  · exact d.fades_text.leavesNoTrace Diagnostic.isPlain_text
  · apply (Diagnostic.fades_text _).leavesNoTrace
    intro h
    apply Diagnostic.isPlain_text
    obtain ⟨hmessage, hdetail⟩ := List.forall_mem_cons.mp h
    show ∀ x ∈ f.heading :: f.message :: f.detail?.toList ++ f.suggestion?.toList, IsPlain x
    rw [List.forall_mem_append, List.forall_mem_cons, List.forall_mem_cons]
    exact ⟨⟨f.isPlain_heading, hmessage, hdetail⟩, f.isPlain_suggestion⟩

/-- The path of the first report ends in a part of a sequence, the second one names nothing special. -/
theorem erase_text_of_unreadable :
    (let report : Report :=
      .completed [⟨"db"⟩] "down" [⟨⟨"db/a\x1b[3"⟩, .fail (.unreadable "1m\x1b[")⟩]
    erase (report.text ⟨true, true, true⟩) = erase (report.text ⟨false, true, true⟩)) ∧
    (let report : Report := .completed [⟨"db"⟩] "down" [⟨⟨"db/a.php"⟩, .fail .emptyBody⟩]
    (∀ x ∈ report.texts, IsPlain x) ∧
      erase (report.text ⟨true, true, true⟩) = report.text ⟨false, true, true⟩) := by
  have hplain : ∀ x ∈ ["down", "db", "db/a.php"], IsPlain x := by decide
  exact ⟨(colour_leaves_no_trace.2.1 _ 1 true).same, hplain,
    (colour_leaves_no_trace.2.1 _ 1 true).exact hplain⟩

end MigrationLint
