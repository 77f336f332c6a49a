import MigrationLint.Proofs.Php.Fault
import MigrationLint.Proofs.Text.Line
import MigrationLint.Proofs.Text.Utf8

/-!
# What a syntax error says

The message about what could not be parsed quotes the start of its first word, or says that the text
ends too early if there is no word. A word has no line breaks, and so a message has none unless the
grammar gives one to the name of a token.

* `Fault.message_of_covers_blank`, `Fault.message_of_covers_word`: what the message quotes;
* `lacks_of_parser_eq_error`: whatever the text is, the error stays on its line.
-/

namespace MigrationLint.Php

open Text

/-! ## What is quoted -/

/-- The node covers this part of a text, and characters end where it starts and where it ends. -/
def Label.Covers (label : Label) (source covered : List Char) : Prop :=
  ∃ before after, source = before ++ covered ++ after ∧
    label.first = (Utf8.encode before).length ∧
    label.last = (Utf8.encode (before ++ covered)).length

theorem Label.Covers.slice? {label : Label} {source covered : List Char}
    (h : label.Covers source covered) :
    Utf8.slice? source label.first label.last = some covered := by
  obtain ⟨before, after, rfl, hfirst, hlast⟩ := h
  rw [hfirst, hlast, Utf8.slice?_append]

namespace Fault

variable {source covered : List Char} {label : Label}

/-- The fault that words which could not be parsed stand for. Nothing is left of a word only if there is
no word. -/
theorem ofLabel_of_slice? (hslice : (Utf8.slice? source label.first label.last).getD [] = covered)
    (hmissing : label.isMissing = false) :
    ofLabel source label =
      if firstWord covered = [] then .unexpectedEnd label.place
      else .unexpected (String.ofList ((firstWord covered).take maxQuoted)) label.place := by
  rw [ofLabel, if_neg (by rw [hmissing]; decide), hslice]
  dsimp only
  cases firstWord covered with
  | nil => rfl
  | cons c word =>
    rw [if_neg (List.cons_ne_nil _ _)]
    rfl

theorem message_of_covers_blank (hcovers : label.Covers source covered)
    (hmissing : label.isMissing = false) (hblank : ∀ c ∈ covered, isBlank c = true) :
    (ofLabel source label).toParseError.message = "Syntax error, unexpected end of file" := by
  have hslice := hcovers.slice?
  rw [ofLabel_of_slice? (by rw [hslice, Option.getD_some]) hmissing,
    if_pos (firstWord_eq_nil_iff.mpr hblank)]
  rfl

/-- A line separator counts as blank. -/
example : (ofLabel "<?=\u2028".toList
    ⟨"ERROR", true, true, false, true, none, 3, 6, 0, 3⟩).toParseError.message =
      "Syntax error, unexpected end of file" := by
  decide

theorem message_of_covers_word (hcovers : label.Covers source covered)
    (hmissing : label.isMissing = false) (hword : firstWord covered ≠ []) :
    (ofLabel source label).toParseError.message =
      "Syntax error, unexpected `" ++ String.ofList ((firstWord covered).take maxQuoted) ++ "`" := by
  have hslice := hcovers.slice?
  rw [ofLabel_of_slice? (by rw [hslice, Option.getD_some]) hmissing, if_neg hword]
  rfl

/-- No quotation reads like the end of the file. -/
theorem quotation_ne_end (word : String) :
    "Syntax error, unexpected `" ++ word ++ "`" ≠ "Syntax error, unexpected end of file" := by
  intro h
  -- the quotation mark and the letter are in the same place
  have hplace := congrArg (fun text => text.toList[25]?) h
  simp only [String.append_assoc, String.toList_append] at hplace
  rw [List.getElem?_append_left (by decide)] at hplace
  exact absurd hplace (by decide)

/-! ## Messages without line breaks -/

variable {breaks : List Char} (hbreaks : breaks ⊆ lineBreaks)

include hbreaks

/-- Only the name of a missing token can bring a line break into a message. -/
theorem lacks_message_ofLabel (source : List Char) (hkind : Lacks breaks label.kind) :
    Lacks breaks (ofLabel source label).toParseError.message := by
  have hfixed : ∀ {x}, Lacks lineBreaks x → Lacks breaks x := Lacks.mono hbreaks
  have htick : Lacks breaks "`" := hfixed (by decide)
  cases hmissing : label.isMissing with
  | true =>
    have hlead : Lacks breaks "Syntax error, missing `" := hfixed (by decide)
    rw [ofLabel, if_pos hmissing]
    exact (hlead.append hkind).append htick
  | false =>
    rw [ofLabel_of_slice? rfl hmissing]
    split
    · have hend : Lacks breaks "Syntax error, unexpected end of file" := hfixed (by decide)
      exact hend
    · have hlead : Lacks breaks "Syntax error, unexpected `" := hfixed (by decide)
      have hword : ∀ cs, Lacks lineBreaks (String.ofList ((firstWord cs).take maxQuoted)) :=
        fun _ => lacks_ofList fun _ hc => isBlank_of_mem_firstWord (List.mem_of_mem_take hc)
      exact (hlead.append (hfixed (hword _))).append htick

end Fault

namespace Cst

/-- What is found in a forest is found in one of its trees. -/
theorem exists_mem_of_firstFaultIn? {cs : List Cst} {label : Label}
    (h : firstFaultIn? cs = some label) : ∃ c ∈ cs, c.firstFault? = some label := by
  induction cs with
  | nil => cases h
  | cons c cs ih =>
    rw [firstFaultIn?] at h
    cases hc : c.firstFault? with
    | some found =>
      rw [hc] at h
      exact ⟨c, List.mem_cons_self, by rw [hc, ← h]⟩
    | none =>
      rw [hc] at h
      obtain ⟨d, hd, hfound⟩ := ih h
      exact ⟨d, List.mem_cons_of_mem _ hd, hfound⟩

/-- What is found in a tree is one of its nodes, whether or not their flags are right. -/
theorem exists_mem_of_firstFault? {c : Cst} {label : Label} (h : c.firstFault? = some label) :
    ∃ d ∈ c.nodes, d.label = label := by
  induction c using induction_children with
  | step c ih =>
    obtain ⟨own, children⟩ := c
    rw [firstFault?] at h
    split at h
    · exact ⟨_, self_mem_nodes _, Option.some.inj h⟩
    · split at h
      · obtain ⟨d, hd, hfound⟩ := exists_mem_of_firstFaultIn? h
        obtain ⟨e, he, hlabel⟩ := ih d hd hfound
        exact ⟨e, mem_nodes_of_mem_children hd he, hlabel⟩
      · cases h

end Cst

/-- The grammar gives no node a kind with line breaks. -/
def Grammar.KindsLack (grammar : Grammar) (breaks : List Char) : Prop :=
  ∀ source root, grammar source = some root → ∀ c ∈ root.nodes, Lacks breaks c.label.kind

section Errors

variable {breaks : List Char} (hbreaks : breaks ⊆ lineBreaks)

include hbreaks

theorem lacks_message_of_parse_eq_error {grammar : Grammar}
    (hkinds : grammar.KindsLack breaks) {source : String} {fault : Fault}
    (h : parse grammar source = .error fault) : Lacks breaks fault.toParseError.message := by
  have hfixed : ∀ {x}, Lacks lineBreaks x → Lacks breaks x := Lacks.mono hbreaks
  rw [parse] at h
  cases hroot : grammar source with
  | none =>
    rw [hroot] at h
    obtain rfl := Except.error.inj h
    exact hfixed (x := "Parser produced no syntax tree") (by decide)
  | some root =>
    rw [hroot] at h
    dsimp only [treeOf] at h
    split at h
    · cases hfault : root.firstFault? with
      | none =>
        rw [hfault] at h
        obtain rfl := Except.error.inj h
        exact hfixed (x := "Syntax error") (by decide)
      | some label =>
        rw [hfault] at h
        obtain rfl := Except.error.inj h
        obtain ⟨c, hc, rfl⟩ := Cst.exists_mem_of_firstFault? hfault
        exact Fault.lacks_message_ofLabel hbreaks _ (hkinds source root hroot c hc)
    · cases h

/-- The number of the line does not break an error either. -/
theorem lacks_parseError_text {e : ParseError} (h : Lacks breaks e.message) :
    Lacks breaks e.text := by
  have hon : Lacks lineBreaks " on line " := by decide
  rw [ParseError.text]
  split
  · exact (h.append (hon.mono hbreaks)).append
      ((lacks_toString _).mono (subset_controls hbreaks))
  · exact h

/-- Whatever a text is, what is wrong with it is said in one line. -/
theorem lacks_of_parser_eq_error {grammar : Grammar} (hkinds : grammar.KindsLack breaks)
    {path : Path} {source : String} {e : ParseError} (h : parser grammar path source = .error e) :
    Lacks breaks e.text := by
  rw [parser] at h
  cases hparse : parse grammar source with
  | ok tree =>
    rw [hparse] at h
    cases h
  | error fault =>
    rw [hparse] at h
    obtain rfl := Except.error.inj h
    exact lacks_parseError_text hbreaks
      (lacks_message_of_parse_eq_error hbreaks hkinds hparse)

end Errors

end MigrationLint.Php
