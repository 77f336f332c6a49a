import Mathlib.Data.List.Flatten
import MigrationLint.Proofs.Json.RoundTrip
import MigrationLint.Proofs.Settings.Decoding
import MigrationLint.Proofs.Text.Quoted
import MigrationLint.Settings.FromJson

/-!
# Shown settings can be recovered

Shown settings end in one line for each of them. The path of the file that they come from stands in
front as it is, and may hold anything, also lines that look like settings. But a line feed never stands
inside the value of a setting, so that the settings are the last lines of the text. The JSON form is
read back as the settings that it shows.

* `Settings.lineTexts_injective`: the lines of settings determine the settings;
* `LoadedSettings.settings_eq_of_text_eq`: so does the text that ends in them;
* `Settings.ofJsonText?_documentText`: the JSON form is read back.
-/

namespace MigrationLint

namespace Settings

variable {s s' : Settings}

/-! ## Lines -/

/-- What stands on the line of a setting. -/
def lineText (field : Field) (value : String) : List Char :=
  ("  " ++ field.name ++ " = ").toList ++ value.toList

/-- The lines of settings, in order. -/
def lineTexts (s : Settings) : List (List Char) :=
  [lineText .method (Text.quoted s.method), lineText .suffix (Text.quoted s.suffix),
    lineText .exclude (Text.quotedList s.exclude), lineText .parallel (Text.truth s.parallel),
    lineText .showExample (Text.truth s.showExample)]

/-- Lines with a line feed after each of them. -/
def endLines (ls : List (List Char)) : List Char :=
  ls.flatMap (· ++ ['\n'])

/-- The lines of settings are their texts, each with a line end. -/
theorem toList_lines (s : Settings) : s.lines.toList = endLines s.lineTexts := by
  simp [lines, line, endLines, lineTexts, lineText]

/-- Truth values are written differently. -/
theorem truth_injective : Function.Injective Text.truth := by
  have hall : ∀ b b' : Bool, Text.truth b = Text.truth b' → b = b' := by decide
  exact fun b b' => hall b b'

/-- Truth values are written in one line. -/
theorem newline_notMem_truth (b : Bool) : '\n' ∉ (Text.truth b).toList := by
  cases b <;> decide

theorem length_lineTexts (s : Settings) : s.lineTexts.length = 5 := rfl

/-- A line has no line end in it if its value has none. -/
theorem newline_notMem_lineText (field : Field) {value : String} (h : '\n' ∉ value.toList) :
    '\n' ∉ lineText field value := by
  have hname : '\n' ∉ ("  " ++ field.name ++ " = ").toList := by cases field <;> decide
  rw [lineText, List.mem_append, not_or]
  exact ⟨hname, h⟩

/-- No line of settings has a line end in it, as texts are quoted. -/
theorem newline_notMem_lineTexts (s : Settings) : ∀ l ∈ s.lineTexts, '\n' ∉ l := by
  simp only [lineTexts, List.forall_mem_cons]
  exact ⟨newline_notMem_lineText _ (Text.newline_notMem_quoted _),
    newline_notMem_lineText _ (Text.newline_notMem_quoted _),
    newline_notMem_lineText _ (Text.newline_notMem_quotedList _),
    newline_notMem_lineText _ (newline_notMem_truth _),
    newline_notMem_lineText _ (newline_notMem_truth _), List.forall_mem_nil _⟩

/-- A line shows its value. -/
theorem lineText_injective (field : Field) : Function.Injective (lineText field) := by
  intro value value' h
  exact String.toList_inj.mp (List.append_cancel_left h)

/-- The lines of settings determine the settings. -/
theorem lineTexts_injective : Function.Injective lineTexts := by
  intro s s' h
  simp only [lineTexts, List.cons.injEq, and_true] at h
  obtain ⟨hmethod, hsuffix, hexclude, hparallel, hexample⟩ := h
  have hmethod := Text.quoted_injective (lineText_injective _ hmethod)
  have hsuffix := Text.quoted_injective (lineText_injective _ hsuffix)
  have hexclude := Text.quotedList_injective (lineText_injective _ hexclude)
  have hparallel := truth_injective (lineText_injective _ hparallel)
  have hexample := truth_injective (lineText_injective _ hexample)
  obtain ⟨method, suffix, exclude, parallel, showExample⟩ := s
  simp only at hmethod hsuffix hexclude hparallel hexample
  rw [hmethod, hsuffix, hexclude, hparallel, hexample]

/-- Lines are read back from a text, with nothing after the last one. -/
theorem splitOn_endLines {ls : List (List Char)} (hls : ∀ l ∈ ls, '\n' ∉ l) :
    (endLines ls).splitOn '\n' = ls ++ [[]] := by
  induction ls with
  | nil => rfl
  | cons l ls ih =>
    obtain ⟨hl, hls⟩ := List.forall_mem_cons.mp hls
    have hcons : endLines (l :: ls) = l ++ '\n' :: endLines ls := by simp [endLines]
    rw [hcons, List.splitOn_append_cons_self, List.splitOn_eq_singleton hl, ih hls]
    rfl

/-- The last lines of a text are determined by their number, whatever stands before them. -/
theorem eq_of_endLines_eq {x x' : List Char} {ls ls' : List (List Char)}
    (hls : ∀ l ∈ ls, '\n' ∉ l) (hls' : ∀ l ∈ ls', '\n' ∉ l) (hlength : ls.length = ls'.length)
    (h : x ++ '\n' :: endLines ls = x' ++ '\n' :: endLines ls') : ls = ls' := by
  -- split at line feeds, both texts end in their lines and an empty one
  have hsplit := congrArg (List.splitOn '\n') h
  rw [List.splitOn_append_cons_self, List.splitOn_append_cons_self, splitOn_endLines hls,
    splitOn_endLines hls'] at hsplit
  have hlines := (List.append_inj' hsplit (by simpa using hlength)).2
  exact List.append_cancel_right hlines

/-! ## JSON -/

/-- Settings are read back from their document. -/
theorem ofJson?_document (s : Settings) : ofJson? s.document = some s := by
  have hsection : ofJsonSection? (.object [(Field.method.name, .string s.method),
      (Field.suffix.name, .string s.suffix), (Field.exclude.name, .strings s.exclude),
      (Field.parallel.name, .boolean s.parallel),
      (Field.showExample.name, .boolean s.showExample)]) = some s := by
    have hnames : [Field.method.name, Field.suffix.name, Field.exclude.name, Field.parallel.name,
        Field.showExample.name].Nodup := by decide
    -- each member has the name of the setting that it is for
    have hname (f : Field) (t : Settings) (j : Json) : t.setMember? (f.name, j) = t.setJson? f j := by
      rw [setMember?, Field.ofName?_eq_some_iff.mpr rfl, Option.bind_some]
    rw [ofJsonSection?]
    refine (if_pos hnames).trans ?_
    simp only [List.foldlM_cons, List.foldlM_nil, hname, setJson?, Json.asText?, Json.asTruth?,
      Json.asTexts?_strings, Option.map_some]
    rfl
  rw [document, ofJson?, if_pos rfl, hsection]

/-- The JSON form of settings is read back as these settings. -/
theorem ofJsonText?_documentText (s : Settings) : ofJsonText? s.documentText = some s := by
  have hend : Json.IsBlanks "\n".toList := by decide
  have hparse := Json.parse_of_isTextOf (Json.isTextOf_text s.document hend)
  rw [ofJsonText?, documentText, hparse, Option.bind_some, ofJson?_document]

end Settings

/-! ## Shown settings -/

/-- What stands before the header of settings that are shown. -/
def LoadedSettings.heading (l : LoadedSettings) : String :=
  "=== Effective Configuration ===\n" ++ "Source: " ++
    (l.source.map Path.text).getD "built-in defaults" ++ "\n"

/-- Loaded settings are shown with a heading, and then as lines. -/
theorem LoadedSettings.toList_text (l : LoadedSettings) :
    l.text.toList =
      (l.heading.toList ++ "\n[check]".toList) ++ '\n' :: Settings.endLines l.settings.lineTexts := by
  -- the path may hold such a header too, but what counts is the end
  have hheader (before after : String) : (before ++ "\n[check]\n" ++ after).toList =
      (before.toList ++ "\n[check]".toList) ++ '\n' :: after.toList := by
    simp
  rw [← Settings.toList_lines]
  exact hheader l.heading l.settings.lines

/-- Settings that are shown alike are equal, whatever the paths of their files are. -/
theorem LoadedSettings.settings_eq_of_text_eq {l l' : LoadedSettings} (h : l.text = l'.text) :
    l.settings = l'.settings := by
  have htext : l.text.toList = l'.text.toList := congrArg String.toList h
  have hlength : l.settings.lineTexts.length = l'.settings.lineTexts.length := by
    rw [Settings.length_lineTexts, Settings.length_lineTexts]
  exact Settings.lineTexts_injective (Settings.eq_of_endLines_eq
    l.settings.newline_notMem_lineTexts l'.settings.newline_notMem_lineTexts hlength
    (l.toList_text.symm.trans (htext.trans l'.toList_text)))

end MigrationLint
