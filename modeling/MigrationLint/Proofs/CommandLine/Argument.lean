import MigrationLint.CommandLine.Canonical
import MigrationLint.CommandLine.Reader
import MigrationLint.Proofs.Json.RoundTrip

/-!
# Arguments that give options

An option can be given in one argument, with its value attached if it takes one. Whatever the value
looks like, the argument is taken for this option with this value, since it starts with two dashes and
the name of the option, and no name has the character that stands before the value.

* `Progress.argument_argument`: what one argument adds to the options of a level;
* `readLevels_arguments`: what several arguments add, one after the other.
-/

namespace MigrationLint

/-! ## Values -/

/-- A number is read back from its decimal digits. -/
theorem Text.natural?_toString (n : Nat) : natural? (toString n).toList = some n := by
  have hspells := Json.spellsNatural_toDigits n
  have hdigits := hspells.isDigit
  have hvalue : ofDigits 10 (Nat.toDigits 10 n) = n := by
    rw [Json.ofDigits_eq_ofDigitChars hdigits, Nat.ofDigitChars_toDigits (by decide) (by decide)]
  show natural? n.repr.toList = some n
  rw [Nat.toList_repr]
  obtain ⟨d, ds, hds, hd⟩ := hspells.exists_cons
  rw [hds] at hdigits hvalue ⊢
  -- the first character is a digit, so that there is no sign
  rw [natural?]
  · rw [hvalue, if_pos (by simpa using hdigits)]
  · rintro _ ⟨⟩
    nomatch hd

/-- The name of a colour mode is read back. -/
theorem ColourMode.ofName?_name (m : ColourMode) : ofName? m.name = some m := by
  cases m <;> decide

/-- The name of an output format is read back. -/
theorem OutputFormat.ofName?_name (f : OutputFormat) : ofName? f.name = some f := by
  cases f <;> decide

/-- The name of an output format is read back also where its case does not matter. -/
theorem OutputFormat.ofNameIgnoringCase?_name (f : OutputFormat) :
    ofNameIgnoringCase? f.name = some f := by
  cases f <;> decide

namespace CommandLine

/-- A path that is not empty is read back. -/
theorem readPath_text {p : Path} (h : p.text ≠ "") : readPath p.text = .ok p := by
  rw [readPath, if_neg h]

/-- Paths are read back one by one. -/
theorem mapM_readPath {ps : List Path} (h : ∀ p ∈ ps, p.text ≠ "") :
    (ps.map Path.text).mapM readPath = .ok ps := by
  induction ps with
  | nil => rfl
  | cons p ps ih =>
    obtain ⟨hp, hps⟩ := List.forall_mem_cons.mp h
    rw [List.map_cons, List.mapM_cons, readPath_text hp, ih hps]
    rfl

/-- A number of 64 bits is read back. -/
theorem readCount?_toString {n : Nat} (h : n < Nat.pow 2 64) : readCount? (toString n) = some n := by
  rw [readCount?, Text.natural?_toString, Option.filter_some, if_pos (decide_eq_true h)]

namespace Given

/-- The text of the value that an option is given with, if it takes one. -/
def value? : Given → Option String
  | colour mode => some mode.name
  | config file | output file => some file.text
  | method s | suffix s | exclude s => some s
  | format f | showFormat f => some f.name
  | jobs n => some (toString n)
  | verbose | quiet | noConfig | noExample | force => none

/-- The argument that gives an option, with its value attached if it takes one. -/
def argument (g : Given) : String :=
  match g.value? with
  | some value => attached g.name value
  | none => "--" ++ g.name.long

/-- The option is given with a value that can be read: a path is not empty, and a number fits 64
bits. -/
def IsReadable : Given → Prop
  | config file | output file => file.text ≠ ""
  | jobs n => n < Nat.pow 2 64
  | _ => True

/-- An option is written with two dashes, its name, and its value behind `=` if it has one. -/
theorem toList_argument (g : Given) :
    g.argument.toList =
      '-' :: '-' :: (g.name.long.toList ++ g.value?.elim [] fun value => '=' :: value.toList) := by
  rw [argument]
  cases g.value? with
  | none => simp
  | some value => simp [attached]

/-- An option has a value iff its name takes one. -/
theorem takesValue_name (g : Given) : g.name.takesValue = g.value?.isSome := by
  cases g <;> rfl

/-- The value of an option is read back from its text. -/
theorem read_name {g : Given} (hg : g.IsReadable) {value : String} (h : g.value? = some value) :
    g.name.read value = .ok g := by
  cases g with
  | verbose | quiet | noConfig | noExample | force => nomatch h
  | method | suffix | exclude =>
    cases h
    rfl
  | colour mode =>
    cases h
    rw [name, OptionName.read, ColourMode.ofName?_name]
    rfl
  | format f =>
    cases h
    rw [name, OptionName.read, OutputFormat.ofNameIgnoringCase?_name]
    rfl
  | showFormat f =>
    cases h
    rw [name, OptionName.read, OutputFormat.ofName?_name]
    rfl
  | config file | output file =>
    cases h
    rw [name, OptionName.read, readPath_text hg]
    rfl
  | jobs n =>
    cases h
    rw [name, OptionName.read, readCount?_toString hg]
    rfl

theorem readFlag_name {g : Given} (h : g.value? = none) : g.name.readFlag = .ok g := by
  cases g with
  | verbose | quiet | noConfig | noExample | force => rfl
  | colour | config | method | suffix | exclude | format | showFormat | output | jobs => nomatch h

end Given

/-! ## Names -/

/-- The character that stands before a value is in no name. -/
theorem ne_equals_of_mem_long (o : OptionName) : ∀ c ∈ o.long.toList, c ≠ '=' := by
  have hnone : '=' ∉ o.long.toList := by
    cases o <;> decide
  exact fun c hc heq => hnone (heq ▸ hc)

theorem exists_long_eq_cons (o : OptionName) : ∃ c cs, o.long.toList = c :: cs := by
  cases o <;> exact ⟨_, _, rfl⟩

/-- The options that may stand at a level have different names. -/
theorem long?_long {l : Level} {o : OptionName} (h : o ∈ l.options) : l.long? o.long = some o := by
  have hall : ∀ o ∈ l.options, l.long? o.long = some o := by cases l <;> decide
  exact hall o h

/-- No command starts with a dash. -/
theorem command?_eq_none {l : Level} {text : String} {cs : List Char} (h : text.toList = '-' :: cs) :
    l.command? text = none := by
  have hall : ∀ c ∈ l.commands, c.1.toList.head? ≠ some '-' := by cases l <;> decide
  rw [Level.command?, Option.map_eq_none_iff, List.find?_eq_none]
  intro c hc heq
  apply hall c hc
  rw [eq_of_beq heq, h]
  rfl

/-! ## One argument -/

namespace Progress

variable {l : Level} {gs : List Given} {g : Given} {o : OptionName}

/-- An option is found by its name, with the value behind `=`. -/
theorem long_attached (p : Progress) (ho : o ∈ l.options) (htakes : o.takesValue = true)
    (value : String) : p.long l (o.long.toList ++ '=' :: value.toList) = p.option o (some value) := by
  have hall : ∀ c ∈ o.long.toList, decide (c ≠ '=') = true := by simpa using ne_equals_of_mem_long o
  have hname : (o.long.toList ++ '=' :: value.toList).takeWhile (· ≠ '=') = o.long.toList := by
    rw [List.takeWhile_append_of_pos hall]
    simp
  have hvalue :
      (o.long.toList ++ '=' :: value.toList).dropWhile (· ≠ '=') = '=' :: value.toList := by
    rw [List.dropWhile_append_of_pos hall]
    simp
  rw [long, hname, hvalue, String.ofList_toList, long?_long ho]
  simp only [htakes, if_true, String.ofList_toList]

/-- An option without a value is found by its name. -/
theorem long_flag (p : Progress) (ho : o ∈ l.options) (htakes : o.takesValue = false) :
    p.long l o.long.toList = p.flag o := by
  have hall : ∀ c ∈ o.long.toList, decide (c ≠ '=') = true := by simpa using ne_equals_of_mem_long o
  have hname : o.long.toList.takeWhile (· ≠ '=') = o.long.toList := List.takeWhile_eq_self_iff.mpr hall
  have hvalue : o.long.toList.dropWhile (· ≠ '=') = [] := List.dropWhile_eq_nil_iff.mpr hall
  rw [long, hname, hvalue, String.ofList_toList, long?_long ho]
  simp [htakes]

/-- An argument that starts with two dashes is a long option, unless all arguments are paths by now.
-/
theorem argument_eq_long {p : Progress} (hp : p.pathsOnly = false) {text : String} {c : Char}
    {cs : List Char} (htext : text.toList = '-' :: '-' :: c :: cs) :
    p.argument l text = p.long l (c :: cs) := by
  rw [argument, htext]
  simp [hp]

/-- An option is added unless it has been given before and must not be given again. -/
theorem add_ok (hnew : ∀ h ∈ gs, h.name = g.name → g.name.isRepeatable = true) :
    add { given := gs } g.name (.ok g) = .ok { given := gs ++ [g] } := by
  have hrepeated : ¬(!g.name.isRepeatable && gs.any fun h => h.name == g.name) = true := by
    rw [Bool.and_eq_true, Bool.not_eq_true', List.any_eq_true]
    rintro ⟨hrep, h, hh, heq⟩
    rw [hnew h hh (eq_of_beq heq)] at hrep
    nomatch hrep
  rw [add, if_neg hrepeated]
  rfl

/-- The argument that gives an option adds this option. -/
theorem argument_argument (ho : g.name ∈ l.options) (hg : g.IsReadable)
    (hnew : ∀ h ∈ gs, h.name = g.name → g.name.isRepeatable = true) :
    argument { given := gs } l g.argument = .ok { given := gs ++ [g] } := by
  obtain ⟨c, cs, hcs⟩ := exists_long_eq_cons g.name
  have htext := g.toList_argument
  have htakes := g.takesValue_name
  rw [hcs, List.cons_append] at htext
  rw [argument_eq_long rfl htext, ← List.cons_append, ← hcs]
  cases hvalue : g.value? with
  | none =>
    rw [hvalue] at htakes
    rw [Option.elim_none, List.append_nil, long_flag _ ho htakes]
    show add { given := gs } g.name g.name.readFlag = _
    rw [Given.readFlag_name hvalue, add_ok hnew]
  | some value =>
    rw [hvalue] at htakes
    rw [Option.elim_some, long_attached _ ho htakes]
    show add { given := gs } g.name (g.name.read value) = _
    rw [Given.read_name hg hvalue, add_ok hnew]

end Progress

/-! ## Several arguments -/

/-- Options that can be given at a level, one after the other. -/
structure Level.Admits (l : Level) (gs : List Given) : Prop where
  /-- The options may stand there. -/
  options : ∀ g ∈ gs, g.name ∈ l.options
  /-- Their values can be read. -/
  readable : ∀ g ∈ gs, g.IsReadable
  /-- An option is given again only if it may be. -/
  apart : gs.Pairwise fun g h => g.name = h.name → h.name.isRepeatable = true

/-- An option that may be given at a level is added to those that have been read. -/
theorem readLevels_argument {l : Level} {g : Given} {gs : List Given} (ho : g.name ∈ l.options)
    (hg : g.IsReadable) (hnew : ∀ h ∈ gs, h.name = g.name → g.name.isRepeatable = true)
    (rest : List String) :
    readLevels l { given := gs } (g.argument :: rest) = readLevels l { given := gs ++ [g] } rest := by
  have hcommand : Progress.command? { given := gs } l g.argument = none := by
    rw [Progress.command?, command?_eq_none g.toList_argument]
    rfl
  rw [readLevels, hcommand]
  simp only [Progress.argument_argument ho hg hnew]

/-- Arguments that give options add these options, in order. -/
theorem readLevels_arguments {l : Level} {gs hs : List Given} (h : l.Admits (gs ++ hs))
    (rest : List String) :
    readLevels l { given := gs } (hs.map Given.argument ++ rest) =
      readLevels l { given := gs ++ hs } rest := by
  induction hs generalizing gs with
  | nil => rw [List.map_nil, List.nil_append, List.append_nil]
  | cons g hs ih =>
    have hnew : ∀ k ∈ gs, k.name = g.name → g.name.isRepeatable = true := fun k hk =>
      (List.pairwise_append.mp h.apart).2.2 k hk g List.mem_cons_self
    rw [List.append_cons] at h ⊢
    rw [List.map_cons, List.cons_append,
      readLevels_argument (h.options g (by simp)) (h.readable g (by simp)) hnew, ih h]

end CommandLine

end MigrationLint
