import Mathlib.Data.List.TakeWhile
import MigrationLint.Text.Blank
import MigrationLint.Text.Style

/-!
# Words and lines

The first word of a text, and what stands on a line of its own. Not everything agrees on which
characters end a line, so that what is said of lines is said for any choice among `lineBreaks`. All of
these are blank, and a word has none of them.

* `IsFirstWord`: what a first word is, without saying how it is found;
* `Lacks`: a text without certain characters, such as line breaks;
* `IsLines`, `HasLine`: a text that is made up of lines, and a line of it.
-/

namespace MigrationLint.Text

/-! ## First words -/

/-- The word comes first in the text: all that is before it is blank, and it goes on until something
blank or nothing follows. -/
def IsFirstWord (cs word : List Char) : Prop :=
  ∃ blanks rest, cs = blanks ++ word ++ rest ∧ (∀ c ∈ blanks, isBlank c = true) ∧ word ≠ [] ∧
    (∀ c ∈ word, isBlank c = false) ∧ ∀ c ∈ rest.head?, isBlank c = true

/-- What is left behind the leading blank characters does not start with one. -/
theorem isBlank_of_dropWhile_eq_cons {cs rest : List Char} {c : Char}
    (h : cs.dropWhile isBlank = c :: rest) : isBlank c = false := by
  simpa [h] using List.head?_dropWhile_not isBlank cs

/-- There is nothing blank in the first word. -/
theorem isBlank_of_mem_firstWord {cs : List Char} {c : Char} (h : c ∈ firstWord cs) :
    isBlank c = false := by
  simpa using List.mem_takeWhile_imp h

/-- There is no first word iff everything is blank. -/
theorem firstWord_eq_nil_iff {cs : List Char} :
    firstWord cs = [] ↔ ∀ c ∈ cs, isBlank c = true := by
  rw [← List.dropWhile_eq_nil_iff, firstWord]
  cases hrest : cs.dropWhile isBlank with
  | nil => simp
  | cons c rest => simp [isBlank_of_dropWhile_eq_cons hrest]

/-- Unless everything is blank, the first word comes first in the text. -/
theorem isFirstWord_firstWord {cs : List Char} (h : firstWord cs ≠ []) :
    IsFirstWord cs (firstWord cs) := by
  refine ⟨cs.takeWhile isBlank, (cs.dropWhile isBlank).dropWhile fun c => !isBlank c, ?_,
    fun c => List.mem_takeWhile_imp, h, fun c => isBlank_of_mem_firstWord, ?_⟩
  · rw [firstWord, List.append_assoc, List.takeWhile_append_dropWhile,
      List.takeWhile_append_dropWhile]
  · intro c hc
    have hhead := List.head?_dropWhile_not (fun c => !isBlank c) (cs.dropWhile isBlank)
    rw [Option.mem_def.mp hc] at hhead
    simpa using hhead

/-! ## Texts without certain characters -/

/-- The characters that may be said to end a line: line feed, vertical tab, form feed, carriage return,
next line, line separator and paragraph separator. -/
def lineBreaks : List Char :=
  ['\n', '\x0b', '\x0c', '\r', '\x85', '\u2028', '\u2029']

/-- A character that may end a line is blank. -/
theorem isBlank_of_mem_lineBreaks : ∀ c ∈ lineBreaks, isBlank c = true :=
  List.all_eq_true.mp (by decide)

/-- The characters that no text of a report has unless it comes from elsewhere: line breaks, and the one
that escape sequences start with. -/
def controls : List Char :=
  '\x1b' :: lineBreaks

/-- Line breaks are among these characters. -/
theorem subset_controls {breaks : List Char} (hbreaks : breaks ⊆ lineBreaks) : breaks ⊆ controls :=
  List.subset_cons_of_subset _ hbreaks

/-- The text has none of the given characters. -/
def Lacks (cs : List Char) (text : String) : Prop :=
  ∀ c ∈ text.toList, c ∉ cs

instance (cs : List Char) (text : String) : Decidable (Lacks cs text) :=
  decidable_of_iff (text.toList.all (fun c => c ∉ cs) = true) (by simp [Lacks])

section Lacks

variable {cs ds : List Char} {x y : String}

/-- The empty text lacks all characters. -/
theorem lacks_empty : Lacks cs "" :=
  fun _ hc => nomatch hc

/-- A text lacks what both of its parts lack. -/
theorem Lacks.append (hx : Lacks cs x) (hy : Lacks cs y) : Lacks cs (x ++ y) := by
  rw [Lacks, String.toList_append, List.forall_mem_append]
  exact ⟨hx, hy⟩

/-- A text that is put together lacks what all of its parts lack. -/
theorem lacks_join {xs : List String} (h : ∀ x ∈ xs, Lacks cs x) : Lacks cs (String.join xs) := by
  induction xs with
  | nil => exact lacks_empty
  | cons x xs ih =>
    obtain ⟨hx, hxs⟩ := List.forall_mem_cons.mp h
    rw [String.join_cons]
    exact hx.append (ih hxs)

/-- A text that lacks some characters lacks fewer of them. -/
theorem Lacks.mono (hsubset : cs ⊆ ds) (h : Lacks ds x) : Lacks cs x :=
  fun c hc hmem => h c hc (hsubset hmem)

/-- Words have no line breaks. -/
theorem lacks_ofList {word : List Char} (h : ∀ c ∈ word, isBlank c = false) :
    Lacks lineBreaks (String.ofList word) := by
  intro c hc hmem
  rw [String.toList_ofList] at hc
  have hblank := isBlank_of_mem_lineBreaks c hmem
  rw [h c hc] at hblank
  nomatch hblank

/-- Numbers are written without any of these characters. -/
theorem lacks_toString (n : Nat) : Lacks controls (toString n) := by
  intro c hc hmem
  have hdigits : c ∈ Nat.toDigits 10 n := Nat.toList_repr ▸ hc
  have hdigit : c.isDigit = true :=
    Nat.isDigit_of_mem_toDigits (by decide) (Nat.le_refl 10) hdigits
  have hnone : controls.all (fun c => !c.isDigit) = true := by decide
  have hother := List.all_eq_true.mp hnone c hmem
  rw [hdigit] at hother
  nomatch hother

/-- The escape sequences of styles have no line breaks. -/
theorem lacks_paint (hcs : cs ⊆ lineBreaks) (colour : Bool) (styles : List Style)
    (h : Lacks cs x) : Lacks cs (Style.paint colour styles x) := by
  have hstart : ∀ s : Style, Lacks lineBreaks s.start := by
    intro s
    cases s <;> decide
  have hstop : Lacks lineBreaks Style.stop := by decide
  cases colour with
  | false => exact h
  | true =>
    have hstarts : Lacks cs (String.join (styles.map Style.start)) :=
      lacks_join (List.forall_mem_map.mpr fun s _ => (hstart s).mono hcs)
    exact (hstarts.append h).append (hstop.mono hcs)

end Lacks

/-! ## Lines of a text -/

/-- The text is made up of lines, each with its end. -/
def IsLines (text : String) : Prop :=
  text = "" ∨ ∃ x, text = x ++ "\n"

/-- The text has a line: only other lines come before it, and its end follows. -/
def HasLine (text line : String) : Prop :=
  ∃ before after, text = before ++ line ++ "\n" ++ after ∧ IsLines before

section HasLine

variable {x y line : String}

/-- Lines after lines are lines. -/
theorem IsLines.append (hx : IsLines x) (hy : IsLines y) : IsLines (x ++ y) := by
  rcases hy with rfl | ⟨z, rfl⟩
  · rwa [String.append_empty]
  · exact .inr ⟨x ++ z, String.append_assoc.symm⟩

/-- Texts of whole lines, put together, are whole lines. -/
theorem isLines_join {xs : List String} (h : ∀ x ∈ xs, IsLines x) : IsLines (String.join xs) := by
  induction xs with
  | nil => exact .inl rfl
  | cons x xs ih =>
    obtain ⟨hx, hxs⟩ := List.forall_mem_cons.mp h
    rw [String.join_cons]
    exact hx.append (ih hxs)

/-- A line stays one when more is added after it. -/
theorem HasLine.append (h : HasLine x line) (y : String) : HasLine (x ++ y) line := by
  obtain ⟨before, after, rfl, hbefore⟩ := h
  exact ⟨before, after ++ y, String.append_assoc, hbefore⟩

/-- A line stays one when whole lines are added before it. -/
theorem HasLine.append_left (hx : IsLines x) (h : HasLine y line) : HasLine (x ++ y) line := by
  obtain ⟨before, after, rfl, hbefore⟩ := h
  refine ⟨x ++ before, after, ?_, hx.append hbefore⟩
  simp only [String.append_assoc]

/-- A line is a line of all the lines together. -/
theorem hasLine_join {xs : List String} (hxs : ∀ x ∈ xs, IsLines x) (h : line ++ "\n" ∈ xs) :
    HasLine (String.join xs) line := by
  obtain ⟨ys, zs, rfl⟩ := List.append_of_mem h
  have hys : ∀ y ∈ ys, IsLines y := fun y hy => hxs y (List.mem_append_left _ hy)
  refine ⟨String.join ys, String.join zs, ?_, isLines_join hys⟩
  rw [String.join_append, String.join_cons]
  simp only [String.append_assoc]

end HasLine

end MigrationLint.Text
