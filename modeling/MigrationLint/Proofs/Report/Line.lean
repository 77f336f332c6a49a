import MigrationLint.Proofs.Check.Composition
import MigrationLint.Proofs.Php.Message
import MigrationLint.Proofs.Report.Colour

/-!
# Outcomes as lines

A report as text shows an outcome on a line of its own. What is found in a file may come from anywhere
in it, but what is shown of it is the start of a word. So the line of an outcome ends where its text
ends, unless the file could not be read, in which case the message is that of the system.

* `Report.View.outcomeLine`: what is shown of an outcome;
* `Report.hasLine_text`: it is a line of the report;
* `outcomes_take_one_line`: what errors quote, and that outcomes have no line breaks.
-/

namespace MigrationLint

open Text

/-! ## Lines of reports -/

namespace Report

/-- What a report shows of an outcome, if it shows it. -/
def View.outcomeLine (v : View) (method : String) (o : Outcome) : String :=
  if o.verdict.isFail then v.failureLine method o else v.passLine o

theorem View.isLines_failureLine (v : View) (method : String) (o : Outcome) :
    IsLines (v.failureLine method o) := by
  rw [failureLine]
  split
  · exact .inr ⟨_, rfl⟩
  · exact .inl rfl

theorem View.isLines_passLine (v : View) (o : Outcome) : IsLines (v.passLine o) :=
  .inr ⟨_, rfl⟩

/-- Every outcome that fails has its line in the report, and so has every other one if passes are
listed. -/
theorem hasLine_text {r : Report} {v : View} {o : Outcome} {line : String} (habort : r.abort = none)
    (ho : o ∈ r.outcomes) (hshown : o.verdict.isFail = true ∨ v.listPasses = true)
    (hline : v.outcomeLine r.method o = line ++ "\n") : HasLine (r.text v) line := by
  have hfailures : ∀ x ∈ r.failures.map (v.failureLine r.method), IsLines x :=
    List.forall_mem_map.mpr fun o _ => v.isLines_failureLine r.method o
  have hpasses : ∀ x ∈ r.passes.map v.passLine, IsLines x :=
    List.forall_mem_map.mpr fun o _ => v.isLines_passLine o
  rw [text, abortMessage?, habort, Option.map_none]
  dsimp only
  refine HasLine.append (HasLine.append ?_ _) _
  rw [View.outcomeLine] at hline
  by_cases hfail : o.verdict.isFail = true
  · rw [if_pos hfail] at hline
    refine HasLine.append (hasLine_join hfailures ?_) _
    exact hline ▸ List.mem_map_of_mem (List.mem_filter.mpr ⟨ho, hfail⟩)
  · rw [if_neg hfail] at hline
    have hpass : o.verdict.isPass = true := by
      rw [Verdict.isPass, ← Option.not_isSome]
      simpa [Verdict.isFail] using hfail
    rw [if_pos (hshown.resolve_left hfail)]
    refine HasLine.append_left (isLines_join hfailures) (hasLine_join hpasses ?_)
    exact hline ▸ List.mem_map_of_mem (List.mem_filter.mpr ⟨ho, hpass⟩)

end Report

/-! ## Outcomes without line breaks -/

/-- An outcome takes one line if nothing that it tells of has line breaks. -/
theorem exists_outcomeLine_eq {breaks : List Char} (hbreaks : breaks ⊆ lineBreaks) (v : Report.View)
    {method : String} {o : Outcome} (hmethod : Lacks breaks method)
    (h : ∀ x ∈ o.texts, Lacks breaks x) :
    ∃ line, Lacks breaks line ∧ v.outcomeLine method o = line ++ "\n" := by
  obtain ⟨path, verdict⟩ := o
  obtain ⟨hpath, hreason⟩ := List.forall_mem_cons.mp h
  cases verdict with
  | pass =>
    have hmark : Lacks lineBreaks "✓ Migration `" := by decide
    have hend : Lacks lineBreaks "` is irreversible" := by decide
    have hline := ((hmark.mono hbreaks).append hpath).append (hend.mono hbreaks)
    exact ⟨_, lacks_paint hbreaks v.colour [.green] hline, rfl⟩
  | fail reason =>
    have hline := reason.lacks_message (subset_controls hbreaks) hpath hmethod
      (by simpa [Verdict.reason?] using hreason)
    exact ⟨_, lacks_paint hbreaks v.colour [.red] hline, rfl⟩

/-! ## What runs find -/

/-- What the rule says about a method it says in words of its own. -/
theorem texts_of_ruleVerdict_eq_fail {m : Option Method} {reason : Reason}
    (h : ruleVerdict m = .fail reason) : reason.texts = [] := by
  unfold ruleVerdict at h
  split at h
  · obtain rfl := Verdict.fail.inj h
    rfl
  · split at h
    · obtain rfl := Verdict.fail.inj h
      rfl
    · split at h
      · nomatch h
      · obtain rfl := Verdict.fail.inj h
        rfl
    · obtain rfl := Verdict.fail.inj h
      rfl

/-- A text is rejected by the parser. -/
theorem Finding.exists_of_ofPath_eq_rejected {t : FileTree} {parser : SourceParser} {p : Path}
    {e : ParseError} (h : ofPath t parser p = .rejected e) : ∃ source, parser p source = .error e := by
  rw [ofPath] at h
  split at h
  · split at h
    · cases h
    · split at h
      · next hparse =>
        cases h
        exact ⟨_, hparse⟩
      · cases h
  · cases h

/-- Unless a file could not be read, what is told of it besides its path is a message of the parser. -/
theorem exists_of_mem_texts_of_inspect {t : FileTree} {parser : SourceParser} {method : String}
    {p : Path} {reason : Reason} (h : (inspect t parser method p).verdict = .fail reason)
    (hread : ∀ message, reason ≠ .unreadable message) :
    ∀ x ∈ reason.texts, ∃ source e, parser p source = .error e ∧ x = e.text := by
  rw [inspect] at h
  cases hfinding : Finding.ofPath t parser p with
  | notAFile =>
    rw [hfinding] at h
    cases h
    simp [Reason.texts]
  | unreadable fault =>
    rw [hfinding] at h
    cases h
    exact absurd rfl (hread fault.message)
  | rejected e =>
    obtain ⟨source, hparse⟩ := Finding.exists_of_ofPath_eq_rejected hfinding
    rw [hfinding] at h
    cases h
    intro x hx
    exact ⟨source, e, hparse, List.mem_singleton.mp hx⟩
  | parsed tree =>
    rw [hfinding] at h
    rw [texts_of_ruleVerdict_eq_fail h]
    simp

namespace Checker

variable {F : Type} [PathFilter F]

/-- The report of a run has the method of the checker, and a run that stops early has no outcomes. -/
theorem run_of_mem_outcomes {c : Checker F} {t : FileTree} {inputs : List Path} {o : Outcome}
    (ho : o ∈ (c.run t inputs).outcomes) :
    (c.run t inputs).method = c.method ∧ (c.run t inputs).abort = none := by
  have haccounts := (c.ends_run t inputs).accounts
  refine ⟨haccounts.method, ?_⟩
  by_contra habort
  rw [show (c.run t inputs).outcomes = [] from haccounts.abort.mp habort] at ho
  cases ho

/-- What an outcome tells of besides its path is what the parser says, unless the file could not be
read. -/
theorem lacks_texts_of_mem_outcomes {c : Checker F} {grammar : Php.Grammar} {t : FileTree}
    {inputs : List Path} {o : Outcome} {breaks : List Char} (hbreaks : breaks ⊆ lineBreaks)
    (hparser : c.parser = Php.parser grammar) (hkinds : grammar.KindsLack breaks)
    (ho : o ∈ (c.run t inputs).outcomes) (hpath : Lacks breaks o.path.text)
    (hread : ∀ message, o.verdict ≠ .fail (.unreadable message)) :
    ∀ x ∈ o.texts, Lacks breaks x := by
  have hinspect := eq_inspect_of_mem_outcomes ho
  refine List.forall_mem_cons.mpr ⟨hpath, List.forall_mem_flatMap.mpr ?_⟩
  intro reason hreason x hx
  have hverdict : o.verdict = .fail reason := by
    cases hv : o.verdict with
    | pass =>
      rw [hv] at hreason
      nomatch hreason
    | fail other =>
      rw [hv] at hreason
      rw [List.mem_singleton.mp hreason]
  have hreadable : ∀ message, reason ≠ .unreadable message := by
    rintro message rfl
    exact hread message hverdict
  rw [hinspect] at hverdict
  obtain ⟨source, e, hparse, rfl⟩ := exists_of_mem_texts_of_inspect hverdict hreadable x hx
  rw [hparser] at hparse
  exact Php.lacks_of_parser_eq_error hbreaks hkinds hparse

end Checker

/-- The message about a node that is not missing says that the text ends too early iff the node covers
nothing but blank characters, and otherwise it quotes the first 32 characters of the first word that
the node covers. So a run over PHP files, whatever is in them, finds nothing that takes more than one
line of its report, unless a file cannot be read, or a path, the method or the kind of a node has line
breaks. -/
theorem outcomes_take_one_line :
    (∀ (source covered : List Char) (label : Php.Label), label.Covers source covered →
      label.isMissing = false →
      let message := (Php.Fault.ofLabel source label).toParseError.message
      (message = "Syntax error, unexpected end of file" ↔ ∀ c ∈ covered, isBlank c = true) ∧
      (message ≠ "Syntax error, unexpected end of file" →
        ∃ word token, IsFirstWord covered word ∧ token = word.take 32 ∧
          token ≠ [] ∧ token.length ≤ 32 ∧ (∀ c ∈ token, isBlank c = false) ∧
          message = "Syntax error, unexpected `" ++ String.ofList token ++ "`")) ∧
    ∀ {F : Type} [PathFilter F] (c : Checker F) (grammar : Php.Grammar) (t : FileTree)
      (inputs : List Path) (v : Report.View) (breaks : List Char),
      breaks ⊆ lineBreaks → c.parser = Php.parser grammar → grammar.KindsLack breaks →
      Lacks breaks c.method →
      ∀ o ∈ (c.run t inputs).outcomes, Lacks breaks o.path.text →
        (∀ message, o.verdict ≠ .fail (.unreadable message)) →
        ∃ line, Lacks breaks line ∧ v.outcomeLine c.method o = line ++ "\n" ∧
          (o.verdict.isFail = true ∨ v.listPasses = true →
            HasLine ((c.run t inputs).text v) line) := by
  constructor
  · intro source covered label hcovers hmissing message
    by_cases hword : firstWord covered = []
    · have hblank := firstWord_eq_nil_iff.mp hword
      have hend : message = _ := Php.Fault.message_of_covers_blank hcovers hmissing hblank
      exact ⟨iff_of_true hend hblank, fun hne => absurd hend hne⟩
    · have hquoted : message = _ := Php.Fault.message_of_covers_word hcovers hmissing hword
      have hne : message ≠ "Syntax error, unexpected end of file" :=
        hquoted ▸ Php.Fault.quotation_ne_end _
      refine ⟨iff_of_false hne (mt firstWord_eq_nil_iff.mpr hword), fun _ => ?_⟩
      exact ⟨firstWord covered, _, isFirstWord_firstWord hword, rfl,
        mt List.take_eq_nil_iff.mp (not_or.mpr ⟨by decide, hword⟩), List.length_take_le ..,
        fun c hc => isBlank_of_mem_firstWord (List.mem_of_mem_take hc), hquoted⟩
  · intro F _ c grammar t inputs v breaks hbreaks hparser hkinds hmethod o ho hpath hread
    have htexts :=
      Checker.lacks_texts_of_mem_outcomes hbreaks hparser hkinds ho hpath hread
    obtain ⟨line, hlacks, hline⟩ := exists_outcomeLine_eq hbreaks v hmethod htexts
    obtain ⟨hreport, habort⟩ := Checker.run_of_mem_outcomes ho
    refine ⟨line, hlacks, hline, fun hshown => ?_⟩
    rw [← hreport] at hline
    exact Report.hasLine_text habort ho hshown hline

/-! ## Stray parentheses and an open heredoc -/

/-- A text with more parentheses than a message quotes. -/
def strayText : List Char :=
  "<?php ".toList ++ List.replicate 40 ')'

/-- The node that covers the parentheses. -/
def strayLabel : Php.Label :=
  ⟨"ERROR", true, true, false, true, none, 6, 46, 0, 6⟩

/-- A text with a heredoc that is not closed. -/
def heredocText : List Char :=
  "<?php <<<EOT\nabc".toList

/-- The node that covers what there is of the heredoc, which is more than a line. -/
def heredocLabel : Php.Label :=
  ⟨"ERROR", true, true, false, true, none, 6, 16, 0, 6⟩

/-- The concrete tree of the text. -/
def heredoc : Php.Cst :=
  ⟨⟨"program", true, false, false, true, none, 0, 16, 0, 0⟩, [
    ⟨⟨"php_tag", true, false, false, false, none, 0, 5, 0, 0⟩, []⟩,
    ⟨heredocLabel, [
      ⟨⟨"<<<", false, false, false, false, none, 6, 9, 0, 6⟩, []⟩,
      ⟨⟨"heredoc_start", true, false, false, false, none, 9, 12, 0, 9⟩, []⟩,
      ⟨⟨"name", true, false, false, false, none, 13, 16, 1, 0⟩, []⟩]⟩]⟩

/-- A grammar that knows this text and nothing else. -/
def heredocGrammar : Php.Grammar := fun source =>
  if source = String.ofList heredocText then some heredoc else none

/-- A checker with this grammar. -/
def heredocChecker : Checker where
  filter := ⟨".php", []⟩
  method := "down"
  parser := Php.parser heredocGrammar
  parallel := false

/-- The file with the text. -/
def heredocFile : FileTree where
  entries := [(["m.php"], .file (Utf8.encode heredocText))]

/-- What is found in the file. -/
def heredocOutcome : Outcome where
  path := ⟨"m.php"⟩
  verdict := .fail (.unparsable "Syntax error, unexpected `<<<EOT` on line 1")

theorem heredocOutcome_mem :
    heredocOutcome ∈ (heredocChecker.run heredocFile [⟨"m.php"⟩]).outcomes := by
  have hresolve : heredocFile.listed.resolve heredocChecker.filter [⟨"m.php"⟩] =
      .ok [⟨"m.php"⟩] := rfl
  have hread : heredocFile.read ⟨"m.php"⟩ = .ok (Utf8.encode heredocText) := rfl
  have hroot : heredocGrammar (String.ofList heredocText) = some heredoc := if_pos rfl
  have hparse : heredocChecker.parser ⟨"m.php"⟩ (String.ofList heredocText) =
      .error (Php.Fault.ofLabel heredocText heredocLabel).toParseError := by
    have hparser : heredocChecker.parser = Php.parser heredocGrammar := rfl
    rw [hparser, Php.parser, Php.parse, hroot]
    rfl
  have hmessage : (Php.Fault.ofLabel heredocText heredocLabel).toParseError.text =
      "Syntax error, unexpected `<<<EOT` on line 1" := by
    decide
  rw [Checker.outcomes_run, Checker.candidates_of_ok hresolve]
  refine List.mem_singleton.mpr ?_
  rw [FileTree.toFileTree_listed, inspect, Finding.ofPath, if_pos (by decide), hread]
  dsimp only
  rw [Utf8.decodeLossy_encode, hparse]
  dsimp only [Finding.verdict]
  rw [hmessage]
  rfl

/-- The parentheses are cut, and although the heredoc goes on in the next line, its outcome does not. -/
theorem heredocOutcome_takes_one_line :
    (strayLabel.Covers strayText (strayText.drop 6) ∧ strayLabel.isMissing = false ∧
      ¬(∀ c ∈ strayText.drop 6, isBlank c = true) ∧
      ∃ word token, IsFirstWord (strayText.drop 6) word ∧ token = word.take 32 ∧
        (Php.Fault.ofLabel strayText strayLabel).toParseError.message =
          "Syntax error, unexpected `" ++ String.ofList token ++ "`") ∧
    heredocGrammar.KindsLack lineBreaks ∧
    Lacks lineBreaks heredocChecker.method ∧
    heredocOutcome ∈ (heredocChecker.run heredocFile [⟨"m.php"⟩]).outcomes ∧
    Lacks lineBreaks heredocOutcome.path.text ∧
    (∀ message, heredocOutcome.verdict ≠ .fail (.unreadable message)) ∧
    ∃ line, Lacks lineBreaks line ∧
      HasLine ((heredocChecker.run heredocFile [⟨"m.php"⟩]).text ⟨true, false, true⟩) line := by
  have hcovers : strayLabel.Covers strayText (strayText.drop 6) :=
    ⟨"<?php ".toList, [], by decide, by decide, by decide⟩
  have hmissing : strayLabel.isMissing = false := rfl
  have hword : ¬(∀ c ∈ strayText.drop 6, isBlank c = true) := fun hblank =>
    absurd (hblank ')' (by decide)) (by decide)
  obtain ⟨hiff, hquoted⟩ := outcomes_take_one_line.1 _ _ _ hcovers hmissing
  obtain ⟨word, token, hfirst, htoken, -, -, -, hmessage⟩ := hquoted (mt hiff.mp hword)
  have hkinds : heredocGrammar.KindsLack lineBreaks := by
    intro source root hroot
    obtain ⟨-, hroot⟩ := Option.ite_none_right_eq_some.mp hroot
    obtain rfl := Option.some.inj hroot
    decide
  have hmethod : Lacks lineBreaks heredocChecker.method := by decide
  have hpath : Lacks lineBreaks heredocOutcome.path.text := by decide
  have hread : ∀ message, heredocOutcome.verdict ≠ .fail (.unreadable message) :=
    fun _ h => nomatch h
  obtain ⟨line, hlacks, -, hline⟩ := outcomes_take_one_line.2 heredocChecker heredocGrammar
    heredocFile [⟨"m.php"⟩] ⟨true, false, true⟩ lineBreaks (List.Subset.refl _) rfl hkinds hmethod
    heredocOutcome heredocOutcome_mem hpath hread
  exact ⟨⟨hcovers, hmissing, hword, word, token, hfirst, htoken, hmessage⟩, hkinds, hmethod,
    heredocOutcome_mem, hpath, hread, line, hlacks, hline (.inl rfl)⟩

end MigrationLint
