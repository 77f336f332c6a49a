import MigrationLint.Proofs.Text.Line

/-!
# Deleting escape sequences

A painted text holds escape sequences, and so may a path or a message that comes from elsewhere. `erase`
deletes all of them, in one pass from left to right. Two texts that follow each other may together hold
a sequence that neither of them holds: the first one ends in a part of it. This cannot happen where a
sequence starts, nor next to a character that is in none of them, such as the end of a line.

* `erase`: a text without its escape sequences;
* `IsFinished`: nothing that follows the text adds to a sequence in it;
* `Fades`: a text that is finished and does not show whether it is coloured, once it is erased;
* `IsPlain`: a text without the character that sequences start with.
-/

namespace MigrationLint.Style

/-! ## Sequences -/

/-- The character that an escape sequence starts with. -/
def escape : Char :=
  '\x1b'

/-- The styles of reports and diagnostics. -/
def palette : List Style :=
  [red, green, yellow, cyan, bold, dim]

/-- The escape sequences of reports and diagnostics. -/
def sequences : List (List Char) :=
  (palette.map start ++ [stop]).map String.toList

/-- The escape sequence that characters start with, if they start with one. -/
def leading? (cs : List Char) : Option (List Char) :=
  sequences.find? fun code => code.isPrefixOf cs

/-- Deletes a number of characters, and then every escape sequence from left to right. -/
def eraseAfter : Nat → List Char → List Char
  | _, [] => []
  | n + 1, _ :: cs => eraseAfter n cs
  | 0, c :: cs =>
    match leading? (c :: cs) with
    | some code => eraseAfter (code.length - 1) cs
    | none => c :: eraseAfter 0 cs

/-- The text without its escape sequences. -/
def erase (text : String) : String :=
  String.ofList (eraseAfter 0 text.toList)

/-- What is left of two sequences that enclose each other is not looked at again. -/
example : erase "\x1b[3\x1b[0m1m" = "\x1b[31m" := by decide

/-- A sequence starts with the escape character, which is not in it again. -/
theorem exists_eq_escape_cons :
    ∀ code ∈ sequences, ∃ rest, code = escape :: rest ∧ escape ∉ rest := by
  have hhead : ∀ code ∈ sequences, code.head? = some escape ∧ escape ∉ code.tail := by decide
  intro code hcode
  obtain ⟨hescape, htail⟩ := hhead code hcode
  obtain ⟨rest, rfl⟩ := List.head?_eq_some_iff.mp hescape
  exact ⟨rest, rfl, htail⟩

/-- No sequence starts with another one. -/
theorem eq_of_sequence_starts :
    ∀ code ∈ sequences, ∀ code' ∈ sequences, code <+: code' → code = code' := by
  decide

/-- What a text starts with is found among the sequences. -/
theorem leading?_eq_some_iff {cs code : List Char} :
    leading? cs = some code ↔ code ∈ sequences ∧ code <+: cs := by
  have hfits : ∀ {code}, leading? cs = some code → code ∈ sequences ∧ code <+: cs := by
    intro code h
    rw [leading?, List.find?_eq_some_iff_append] at h
    obtain ⟨hlead, before, after, hsequences, -⟩ := h
    exact ⟨hsequences ▸ by simp, List.isPrefixOf_iff_prefix.mp hlead⟩
  refine ⟨hfits, ?_⟩
  rintro ⟨hcode, hlead⟩
  cases hfound : leading? cs with
  | none =>
    have hother := List.find?_eq_none.mp hfound code hcode
    exact absurd (List.isPrefixOf_iff_prefix.mpr hlead) hother
  | some code' =>
    -- of two sequences at the same place one starts with the other
    obtain ⟨hcode', hlead'⟩ := hfits hfound
    apply congrArg some
    rcases List.prefix_or_prefix_of_prefix hlead' hlead with h | h
    · exact eq_of_sequence_starts code' hcode' code hcode h
    · exact (eq_of_sequence_starts code hcode code' hcode' h).symm

/-- A text that starts with any other character does not start with a sequence. -/
theorem leading?_cons_of_ne {c : Char} (hc : c ≠ escape) (cs : List Char) :
    leading? (c :: cs) = none := by
  rw [Option.eq_none_iff_forall_ne_some]
  intro code hfound
  obtain ⟨hcode, hlead⟩ := leading?_eq_some_iff.mp hfound
  obtain ⟨rest, rfl, -⟩ := exists_eq_escape_cons code hcode
  exact hc (List.cons_prefix_cons.mp hlead).1.symm

/-! ## Texts after each other -/

/-- The characters do not go on with a sequence that starts before them. -/
def Apart (cs : List Char) : Prop :=
  ∀ c, cs.head? = some c → ∀ code ∈ sequences, c ∉ code.tail

/-- A text that starts with the escape character is apart from what is before it: no sequence goes on
with one. -/
theorem apart_escape_cons (cs : List Char) : Apart (escape :: cs) := by
  intro c hc code hcode
  obtain rfl : escape = c := Option.some.inj hc
  obtain ⟨rest, rfl, hrest⟩ := exists_eq_escape_cons code hcode
  exact hrest

/-- The character is in no sequence. -/
def divides (c : Char) : Bool :=
  sequences.all fun code => !code.contains c

/-- A text that starts with a character that is in no sequence is apart from what is before it. -/
theorem apart_of_divides {c : Char} (hc : divides c = true) (cs : List Char) :
    Apart (c :: cs) := by
  intro d hd code hcode hmem
  obtain rfl : c = d := Option.some.inj hd
  have hother : c ∉ code := by simpa using List.all_eq_true.mp hc code hcode
  exact hother (List.mem_of_mem_tail hmem)

/-- What stands apart does not make a sequence out of characters that are none. -/
theorem leading?_append {c : Char} {cs ds : List Char} (h : Apart ds) :
    leading? (c :: cs ++ ds) = leading? (c :: cs) := by
  apply Option.ext
  intro code
  rw [leading?_eq_some_iff, leading?_eq_some_iff]
  refine and_congr_right fun hcode => ⟨fun hlead => ?_, fun hlead => ?_⟩
  · rcases List.prefix_or_prefix_of_prefix hlead (List.prefix_append (c :: cs) ds) with hin | hover
    · exact hin
    · -- the sequence would reach into what stands apart
      obtain ⟨rest, rfl⟩ := hover
      have hrest : rest <+: ds := (List.prefix_append_right_inj _).mp hlead
      cases rest with
      | nil => simp
      | cons d rest =>
        obtain ⟨ds', rfl⟩ := hrest
        exact absurd (by simp) (h d rfl _ hcode)
  · exact hlead.trans (List.prefix_append _ _)

/-- What stands apart is erased by itself. -/
theorem eraseAfter_append {cs ds : List Char} (h : Apart ds) {n : Nat} (hn : n ≤ cs.length) :
    eraseAfter n (cs ++ ds) = eraseAfter n cs ++ eraseAfter 0 ds := by
  induction cs generalizing n with
  | nil =>
    obtain rfl : n = 0 := Nat.le_zero.mp hn
    rfl
  | cons c cs ih =>
    cases n with
    | succ n => exact ih (Nat.le_of_succ_le_succ hn)
    | zero =>
      have hleading : leading? (c :: (cs ++ ds)) = leading? (c :: cs) := leading?_append h
      rw [List.cons_append, eraseAfter, eraseAfter, hleading]
      cases hfound : leading? (c :: cs) with
      | none =>
        show c :: eraseAfter 0 (cs ++ ds) = c :: eraseAfter 0 cs ++ eraseAfter 0 ds
        rw [ih (Nat.zero_le _), List.cons_append]
      | some code =>
        -- the rest of the sequence lies within the first characters
        have hlength := (leading?_eq_some_iff.mp hfound).2.length_le
        rw [List.length_cons] at hlength
        exact ih (by omega)

/-- What has been counted as part of a sequence is left out. -/
theorem eraseAfter_length (cs ds : List Char) :
    eraseAfter cs.length (cs ++ ds) = eraseAfter 0 ds := by
  induction cs with
  | nil => rfl
  | cons c cs ih => exact ih

@[simp]
theorem erase_empty : erase "" = "" :=
  rfl

/-- Texts that stand apart are erased one after the other. -/
theorem erase_append {x y : String} (h : Apart y.toList) : erase (x ++ y) = erase x ++ erase y := by
  rw [erase, erase, erase, String.toList_append, eraseAfter_append h (Nat.zero_le _),
    String.ofList_append]

/-- A sequence is deleted where it starts. -/
theorem erase_sequence_append {code : String} (hcode : code.toList ∈ sequences) (rest : String) :
    erase (code ++ rest) = erase rest := by
  have hleading : leading? (code.toList ++ rest.toList) = some code.toList :=
    leading?_eq_some_iff.mpr ⟨hcode, List.prefix_append _ _⟩
  obtain ⟨tail, htail, -⟩ := exists_eq_escape_cons _ hcode
  rw [erase, erase, String.toList_append]
  rw [htail] at hleading ⊢
  rw [List.cons_append] at hleading ⊢
  rw [eraseAfter, hleading]
  exact congrArg String.ofList (eraseAfter_length tail rest.toList)

/-! ## Texts without the character that sequences start with -/

/-- The text does not have the character that sequences start with. -/
def IsPlain (text : String) : Prop :=
  escape ∉ text.toList

instance (text : String) : Decidable (IsPlain text) :=
  inferInstanceAs (Decidable (escape ∉ text.toList))

/-- A text is plain if it lacks the escape character. -/
theorem isPlain_iff_lacks {text : String} : IsPlain text ↔ Text.Lacks [escape] text := by
  constructor
  · intro h c hc hmem
    obtain rfl := List.mem_singleton.mp hmem
    exact h hc
  · exact fun h hmem => h escape hmem (List.mem_singleton_self _)

/-- A text that is given by its characters is plain if they are. -/
theorem isPlain_ofList {cs : List Char} (h : escape ∉ cs) : IsPlain (String.ofList cs) := by
  rwa [IsPlain, String.toList_ofList]

theorem isPlain_empty : IsPlain "" :=
  List.not_mem_nil

theorem isPlain_line : IsPlain "\n" := by
  decide

/-- Plain texts after each other are plain. -/
theorem IsPlain.append {x y : String} (hx : IsPlain x) (hy : IsPlain y) : IsPlain (x ++ y) := by
  rw [IsPlain, String.toList_append, List.mem_append, not_or]
  exact ⟨hx, hy⟩

/-- A text that is put together from plain texts is plain. -/
theorem isPlain_join {xs : List String} (h : ∀ x ∈ xs, IsPlain x) : IsPlain (String.join xs) :=
  isPlain_iff_lacks.mpr (Text.lacks_join fun x hx => isPlain_iff_lacks.mp (h x hx))

/-- So is one with a plain text between them. -/
theorem isPlain_intercalate {separator : String} (hseparator : IsPlain separator) {xs : List String}
    (h : ∀ x ∈ xs, IsPlain x) : IsPlain (separator.intercalate xs) := by
  induction xs with
  | nil => exact isPlain_empty
  | cons x xs ih =>
    obtain ⟨hx, hxs⟩ := List.forall_mem_cons.mp h
    cases xs with
    | nil => rwa [String.intercalate_singleton]
    | cons y ys =>
      rw [String.intercalate_cons_cons]
      exact (hx.append hseparator).append (ih hxs)

/-- Numbers are plain. -/
theorem isPlain_toString (n : Nat) : IsPlain (toString n) :=
  isPlain_iff_lacks.mpr ((Text.lacks_toString n).mono (by decide))

/-- Characters among which no sequence starts stay, whatever follows them. -/
theorem eraseAfter_append_of_notMem {cs : List Char} (h : escape ∉ cs) (ds : List Char) :
    eraseAfter 0 (cs ++ ds) = cs ++ eraseAfter 0 ds := by
  induction cs with
  | nil => rfl
  | cons c cs ih =>
    obtain ⟨hc, hcs⟩ := not_or.mp (mt List.mem_cons.mpr h)
    rw [List.cons_append, eraseAfter, leading?_cons_of_ne (Ne.symm hc)]
    show c :: eraseAfter 0 (cs ++ ds) = c :: (cs ++ eraseAfter 0 ds)
    rw [ih hcs]

/-- There is nothing to be deleted from a plain text. -/
theorem erase_isPlain_append {x : String} (hx : IsPlain x) (rest : String) :
    erase (x ++ rest) = x ++ erase rest := by
  rw [erase, erase, String.toList_append, eraseAfter_append_of_notMem hx, String.ofList_append,
    String.ofList_toList]

/-- Nothing is erased from a plain text. -/
theorem erase_of_isPlain {text : String} (h : IsPlain text) : erase text = text := by
  simpa using erase_isPlain_append h ""

/-! ## Finished texts -/

/-- Nothing that follows the text adds to a sequence in it. -/
def IsFinished (text : String) : Prop :=
  ∀ rest, erase (text ++ rest) = erase text ++ erase rest

/-- A plain text has no sequence that could go on. -/
theorem isFinished_of_isPlain {text : String} (h : IsPlain text) : IsFinished text := by
  intro rest
  rw [erase_isPlain_append h, erase_of_isPlain h]

/-- Finished texts after each other are finished. -/
theorem IsFinished.append {x y : String} (hx : IsFinished x) (hy : IsFinished y) :
    IsFinished (x ++ y) := by
  intro rest
  rw [String.append_assoc, hx, hy, hx, String.append_assoc]

/-- A text that ends in a character that is in no sequence is finished. -/
theorem isFinished_append (x : String) {y : String} {c : Char} (hlast : y.toList.getLast? = some c)
    (hc : divides c = true) : IsFinished (x ++ y) := by
  have hne : c ≠ escape := by
    rintro rfl
    exact absurd hc (by decide)
  obtain ⟨cs, hcs⟩ : ∃ cs, (x ++ y).toList = cs ++ [c] := by
    apply List.getLast?_eq_some_iff.mp
    rw [String.toList_append, List.getLast?_append, hlast, Option.some_or]
  -- the last character stays, whatever is before and after it
  have hrest : ∀ ds, eraseAfter 0 (cs ++ c :: ds) = eraseAfter 0 cs ++ c :: eraseAfter 0 ds := by
    intro ds
    rw [eraseAfter_append (apart_of_divides hc ds) (Nat.zero_le _)]
    apply congrArg
    rw [eraseAfter, leading?_cons_of_ne hne]
  intro rest
  rw [erase, erase, erase, String.toList_append, hcs, List.append_assoc, List.singleton_append,
    hrest, hrest, ← String.ofList_append, List.append_assoc]
  rfl

/-! ## Painted texts -/

/-- The sequences that turn styles on are deleted before the text that follows is looked at. -/
theorem erase_starts_append {styles : List Style} (hstyles : styles ⊆ palette) (rest : String) :
    erase (String.join (styles.map start) ++ rest) = erase rest := by
  have hstart : ∀ s ∈ palette, (start s).toList ∈ sequences := by decide
  induction styles with
  | nil => rw [List.map_nil, String.join_nil, String.empty_append]
  | cons s styles ih =>
    obtain ⟨hs, hstyles⟩ := List.cons_subset.mp hstyles
    rw [List.map_cons, String.join_cons, String.append_assoc,
      erase_sequence_append (hstart s hs), ih hstyles]

/-- A painted text is erased by itself, whatever follows it. -/
theorem erase_paint_true_append {styles : List Style} (hstyles : styles ⊆ palette)
    (text rest : String) :
    erase (paint true styles text ++ rest) = erase text ++ erase rest := by
  have hstop : stop.toList ∈ sequences := by decide
  -- the sequence that ends the styles starts where the text stops
  have hapart : Apart (stop ++ rest).toList := by
    rw [String.toList_append]
    exact apart_escape_cons _
  calc erase (paint true styles text ++ rest)
      = erase (String.join (styles.map start) ++ (text ++ (stop ++ rest))) := by
        rw [← String.append_assoc, ← String.append_assoc]
        rfl
    _ = erase (text ++ (stop ++ rest)) := erase_starts_append hstyles _
    _ = erase text ++ erase (stop ++ rest) := erase_append hapart
    _ = erase text ++ erase rest := by rw [erase_sequence_append hstop]

/-- Painting adds sequences and nothing else. -/
theorem erase_paint_true {styles : List Style} (hstyles : styles ⊆ palette) (text : String) :
    erase (paint true styles text) = erase text := by
  simpa using erase_paint_true_append hstyles text ""

/-- Followed by what stands apart, a painted text leaves no trace of whether it is coloured. -/
theorem erase_paint_append {styles : List Style} (hstyles : styles ⊆ palette) (colour : Bool)
    (text : String) {rest : String} (hrest : Apart rest.toList) :
    erase (paint colour styles text ++ rest) = erase text ++ erase rest := by
  cases colour with
  | false => exact erase_append hrest
  | true => exact erase_paint_true_append hstyles text rest

/-- A text that may be coloured is finished, and once it is erased it does not show whether it is
coloured. -/
structure Fades (text : Bool → String) : Prop where
  finished : ∀ colour, IsFinished (text colour)
  same : ∀ colour, erase (text colour) = erase (text false)

/-- A finished text that is not painted looks the same without colour. -/
theorem fades_of_isFinished {text : String} (h : IsFinished text) : Fades fun _ => text :=
  ⟨fun _ => h, fun _ => rfl⟩

/-- So does a plain one. -/
theorem fades_of_isPlain {text : String} (h : IsPlain text) : Fades fun _ => text :=
  fades_of_isFinished (isFinished_of_isPlain h)

/-- Texts after each other fade if each of them does. -/
theorem Fades.append {x y : Bool → String} (hx : Fades x) (hy : Fades y) :
    Fades fun colour => x colour ++ y colour where
  finished colour := (hx.finished colour).append (hy.finished colour)
  same colour := by
    rw [hx.finished colour, hx.finished false, hx.same colour, hy.same colour]

/-- What is there only in some case fades if it does in each of them. -/
theorem Fades.ite {x y : Bool → String} {p : Prop} [Decidable p] (hx : Fades x) (hy : Fades y) :
    Fades fun colour => if p then x colour else y colour := by
  split
  · exact hx
  · exact hy

/-- A text that is put together fades if all of its parts do. -/
theorem Fades.join {α : Type} {text : Bool → α → String} {as : List α}
    (h : ∀ a ∈ as, Fades fun colour => text colour a) :
    Fades fun colour => String.join (as.map (text colour)) := by
  induction as with
  | nil => exact fades_of_isPlain isPlain_empty
  | cons a as ih =>
    obtain ⟨ha, has⟩ := List.forall_mem_cons.mp h
    simp only [List.map_cons, String.join_cons]
    exact ha.append (ih has)

/-- A painted text fades. -/
theorem fades_paint {styles : List Style} (hstyles : styles ⊆ palette) {text : String}
    (h : IsFinished text) : Fades fun colour => paint colour styles text where
  finished colour := by
    cases colour with
    | false => exact h
    | true =>
      intro rest
      rw [erase_paint_true_append hstyles, erase_paint_true hstyles]
  same colour := by
    cases colour with
    | false => rfl
    | true => exact erase_paint_true hstyles text

/-- The end of a line finishes any text. -/
theorem fades_paint_line {styles : List Style} (hstyles : styles ⊆ palette) (text : String) :
    Fades fun colour => paint colour styles text ++ "\n" where
  finished colour := isFinished_append _ rfl (by decide)
  same colour := by
    have hend : Apart "\n".toList := apart_of_divides (by decide) []
    rw [erase_paint_append hstyles colour text hend, erase_paint_append hstyles false text hend]

end MigrationLint.Style
