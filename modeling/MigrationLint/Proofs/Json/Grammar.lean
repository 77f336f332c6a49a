import Mathlib.Data.List.DropRight
import MigrationLint.Json.Reader

/-!
# The grammar of JSON

Which texts are well-formed JSON, and for which value, said without a reader. Numbers are integers;
everything else is as the grammar of JSON has it, with all its spellings: blanks between the parts,
escapes that are not necessary, surrogate pairs.

* `Spells`: characters that write a value;
* `IsTextOf`: a text that holds one value;
* `parse_of_isTextOf`: the reader finds the value in every such text, so a text has one value only.
-/

namespace MigrationLint.Json

/-! ## Well-formed texts -/

/-- Nothing but characters that may stand between the parts of a value. -/
def IsBlanks (cs : List Char) : Prop :=
  ∀ c ∈ cs, isBlank c = true

instance (cs : List Char) : Decidable (IsBlanks cs) :=
  decidable_of_iff (cs.all isBlank = true) List.all_eq_true

/-- The letters that stand for a character after a backslash. -/
def shortEscapes : List (Char × Char) :=
  [('"', '"'), ('\\', '\\'), ('/', '/'), ('b', '\x08'), ('f', '\x0c'), ('n', '\n'), ('r', '\r'),
    ('t', '\t')]

/-- Four hexadecimal digits that write a number. -/
inductive SpellsCode : List Char → Nat → Prop
  | mk {a b c d : Char} {w x y z : Nat} (ha : Text.hexDigit? a = some w)
      (hb : Text.hexDigit? b = some x) (hc : Text.hexDigit? c = some y)
      (hd : Text.hexDigit? d = some z) :
      SpellsCode [a, b, c, d] (0x1000 * w + 0x100 * x + 0x10 * y + z)

/-- What may stand for one character inside quotes. -/
inductive SpellsChar : List Char → Char → Prop
  | plain {c : Char} (hquote : c ≠ '"') (hbackslash : c ≠ '\\') (hcontrol : 0x20 ≤ c.toNat) :
      SpellsChar [c] c
  | short {letter c : Char} (hletter : (letter, c) ∈ shortEscapes) : SpellsChar ['\\', letter] c
  | code {ds : List Char} {c : Char} (hcode : SpellsCode ds c.toNat) :
      SpellsChar ('\\' :: 'u' :: ds) c
  | pair {ds es : List Char} {high low : Nat} {c : Char} (hds : SpellsCode ds high)
      (hes : SpellsCode es low) (hhigh : 0xd800 ≤ high ∧ high < 0xdc00)
      (hlow : 0xdc00 ≤ low ∧ low < 0xe000)
      (hc : c.toNat = 0x10000 + (high - 0xd800) * 0x400 + (low - 0xdc00)) :
      SpellsChar ('\\' :: 'u' :: ds ++ '\\' :: 'u' :: es) c

/-- What may stand for a string inside quotes. -/
inductive SpellsChars : List Char → List Char → Prop
  | nil : SpellsChars [] []
  | cons {ws vs : List Char} {c : Char} {cs : List Char} (hc : SpellsChar ws c)
      (hcs : SpellsChars vs cs) : SpellsChars (ws ++ vs) (c :: cs)

/-- Digits that write a number, without zeros in front. -/
inductive SpellsNatural : List Char → Nat → Prop
  | zero : SpellsNatural ['0'] 0
  | digits {d : Char} {ds : List Char} (hzero : d ≠ '0') (hd : d.isDigit = true)
      (hds : ∀ c ∈ ds, c.isDigit = true) :
      SpellsNatural (d :: ds) (Nat.ofDigitChars 10 (d :: ds) 0)

/-- One part or several, with commas between them and blanks around each. -/
inductive SpellsParts {α : Type} (part : List Char → α → Prop) : List Char → List α → Prop
  | one {before cs after : List Char} {a : α} (hbefore : IsBlanks before) (hpart : part cs a)
      (hafter : IsBlanks after) : SpellsParts part (before ++ (cs ++ after)) [a]
  | more {before cs after rest : List Char} {a : α} {as : List α} (hbefore : IsBlanks before)
      (hpart : part cs a) (hafter : IsBlanks after) (hrest : SpellsParts part rest as) :
      SpellsParts part (before ++ (cs ++ (after ++ ',' :: rest))) (a :: as)

/-- A name in quotes, a colon and a value. -/
inductive SpellsMember (value : List Char → Json → Prop) : List Char → String × Json → Prop
  | mk {ws name before after cs : List Char} {j : Json} (hname : SpellsChars ws name)
      (hbefore : IsBlanks before) (hafter : IsBlanks after) (hvalue : value cs j) :
      SpellsMember value ('"' :: (ws ++ '"' :: (before ++ ':' :: (after ++ cs))))
        (String.ofList name, j)

/-- The characters are well-formed JSON for a value. -/
inductive Spells : List Char → Json → Prop
  | null : Spells ['n', 'u', 'l', 'l'] null
  | true : Spells ['t', 'r', 'u', 'e'] (boolean true)
  | false : Spells ['f', 'a', 'l', 's', 'e'] (boolean false)
  | natural {cs : List Char} {n : Nat} (hn : SpellsNatural cs n) : Spells cs (number n)
  | negative {cs : List Char} {n : Nat} (hn : SpellsNatural cs n) : Spells ('-' :: cs) (number (-n))
  | string {ws cs : List Char} (hcs : SpellsChars ws cs) :
      Spells ('"' :: (ws ++ ['"'])) (string (String.ofList cs))
  | noItems {blanks : List Char} (hblanks : IsBlanks blanks) :
      Spells ('[' :: (blanks ++ [']'])) (list [])
  | items {ws : List Char} {js : List Json} (hjs : SpellsParts Spells ws js) :
      Spells ('[' :: (ws ++ [']'])) (list js)
  | noMembers {blanks : List Char} (hblanks : IsBlanks blanks) :
      Spells ('\x7b' :: (blanks ++ ['\x7d'])) (object [])
  | members {ws : List Char} {ms : List (String × Json)}
      (hms : SpellsParts (SpellsMember Spells) ws ms) :
      Spells ('\x7b' :: (ws ++ ['\x7d'])) (object ms)

/-- The text is well-formed JSON for a value: it holds this value and nothing else but blanks. -/
def IsTextOf (text : String) (j : Json) : Prop :=
  ∃ before cs after, IsBlanks before ∧ Spells cs j ∧ IsBlanks after ∧
    text.toList = before ++ (cs ++ after)

/-! ## Blanks -/

theorem isBlanks_nil : IsBlanks [] :=
  List.forall_mem_nil _

/-- Blanks before a text are skipped. -/
theorem skipBlanks_append {blanks : List Char} (hblanks : IsBlanks blanks) (cs : List Char) :
    skipBlanks (blanks ++ cs) = skipBlanks cs :=
  List.dropWhile_append_of_pos hblanks

/-- Nothing is skipped before a character that is not blank. -/
theorem skipBlanks_cons {c : Char} (hc : isBlank c = false) (cs : List Char) :
    skipBlanks (c :: cs) = c :: cs := by
  simp [skipBlanks, hc]

/-- The characters start with one that is not blank and closes nothing. Values and members do. -/
def Opens (cs : List Char) : Prop :=
  ∃ c tail, cs = c :: tail ∧ isBlank c = false ∧ c ≠ ']' ∧ c ≠ '\x7d'

/-- Nothing is skipped before a text that opens with something. -/
theorem skipBlanks_of_opens {cs : List Char} (h : Opens cs) (rest : List Char) :
    skipBlanks (cs ++ rest) = cs ++ rest := by
  obtain ⟨c, tail, rfl, hc, -, -⟩ := h
  exact skipBlanks_cons hc _

/-! ## Strings -/

/-- A code is spelled with four digits, and they are read as its number. -/
theorem SpellsCode.exists_digits {ds : List Char} {n : Nat} (h : SpellsCode ds n) :
    ∃ a b c d, ds = [a, b, c, d] ∧ hexNumber? [a, b, c, d] = some n := by
  obtain ⟨ha, hb, hc, hd⟩ := h
  refine ⟨_, _, _, _, rfl, ?_⟩
  simp [hexNumber?, ha, hb, hc, hd]
  omega

/-- A character that stands for itself is read as itself. -/
theorem readString_plain {c : Char} (hquote : c ≠ '"') (hbackslash : c ≠ '\\')
    (hcontrol : 0x20 ≤ c.toNat) (rest : List Char) :
    readString (c :: rest) = prepend c (readString rest) := by
  have hraw : ¬c.toNat < 0x20 := Nat.not_lt.mpr hcontrol
  rw [readString.eq_def]
  -- the other cases start with a quote or a backslash
  split
  · next heq => nomatch heq
  · next heq => exact absurd (List.cons.inj heq).1 hquote
  · next heq => exact absurd (List.cons.inj heq).1 hbackslash
  · next heq => exact absurd (List.cons.inj heq).1 hbackslash
  · next heq =>
    obtain ⟨rfl, rfl⟩ := List.cons.inj heq
    rw [if_neg hraw]

/-- A letter behind a backslash is read as the character that it is short for. -/
theorem readString_short {letter c : Char} (h : (letter, c) ∈ shortEscapes) (rest : List Char) :
    readString ('\\' :: letter :: rest) = prepend c (readString rest) := by
  simp only [shortEscapes, List.mem_cons, Prod.mk.injEq, List.not_mem_nil, or_false] at h
  rcases h with ⟨rfl, rfl⟩ | ⟨rfl, rfl⟩ | ⟨rfl, rfl⟩ | ⟨rfl, rfl⟩ | ⟨rfl, rfl⟩ | ⟨rfl, rfl⟩ |
    ⟨rfl, rfl⟩ | ⟨rfl, rfl⟩ <;>
  rw [readString.eq_def] <;> simp [unescape?]

/-- A character that is spelled by its code is read. -/
theorem readString_code {ds : List Char} {c : Char} (h : SpellsCode ds c.toNat)
    (rest : List Char) :
    readString ('\\' :: 'u' :: (ds ++ rest)) = prepend c (readString rest) := by
  obtain ⟨x, y, z, w, rfl, hnumber⟩ := h.exists_digits
  -- a character is not one half of a surrogate pair
  have hvalid : c.toNat < 0xd800 ∨ 0xdfff < c.toNat ∧ c.toNat < 0x110000 := c.valid
  have hhigh : ¬(0xd800 ≤ c.toNat ∧ c.toNat < 0xdc00) := by omega
  have hlow : ¬(0xdc00 ≤ c.toNat ∧ c.toNat < 0xe000) := by omega
  simp [readString, hnumber, hhigh, hlow]

/-- A character that is spelled by a pair of surrogates is read. -/
theorem readString_pair {ds es : List Char} {high low : Nat} {c : Char} (hds : SpellsCode ds high)
    (hes : SpellsCode es low) (hhigh : 0xd800 ≤ high ∧ high < 0xdc00)
    (hlow : 0xdc00 ≤ low ∧ low < 0xe000)
    (hc : c.toNat = 0x10000 + (high - 0xd800) * 0x400 + (low - 0xdc00)) (rest : List Char) :
    readString ('\\' :: 'u' :: (ds ++ '\\' :: 'u' :: (es ++ rest))) =
      prepend c (readString rest) := by
  obtain ⟨x, y, z, w, rfl, hnumber⟩ := hds.exists_digits
  obtain ⟨x', y', z', w', rfl, hnumber'⟩ := hes.exists_digits
  have hjoin : joinPair? high low = some c := by
    rw [joinPair?, if_pos hlow, ← hc, Char.ofNat_toNat]
  simp [readString, hnumber, hnumber', hhigh, hjoin]

/-- However a character is spelled, it is read. -/
theorem readString_of_spellsChar {ws : List Char} {c : Char} (h : SpellsChar ws c)
    (rest : List Char) : readString (ws ++ rest) = prepend c (readString rest) := by
  cases h with
  | plain hquote hbackslash hcontrol => exact readString_plain hquote hbackslash hcontrol rest
  | short hletter => exact readString_short hletter rest
  | code hcode => exact readString_code hcode rest
  | pair hds hes hhigh hlow hc => simpa using readString_pair hds hes hhigh hlow hc rest

/-- A string is read up to its closing quote. -/
theorem readString_of_spellsChars {ws cs : List Char} (h : SpellsChars ws cs) (rest : List Char) :
    readString (ws ++ '"' :: rest) = some (cs, rest) := by
  induction h with
  | nil => simp [readString]
  | cons hc _ ih => rw [List.append_assoc, readString_of_spellsChar hc, ih]; rfl

/-! ## Numbers -/

/-- What follows does not go on with a number. -/
def EndsNumber (rest : List Char) : Prop :=
  ∀ c ∈ rest.head?, c.isDigit = false ∧ c ≠ '.' ∧ c ≠ 'e' ∧ c ≠ 'E'

/-- A number ends before blanks. -/
theorem endsNumber_of_isBlanks {cs : List Char} (hcs : IsBlanks cs) : EndsNumber cs := by
  intro c hc
  have hblank : isBlank c = true := hcs c (List.mem_of_mem_head? hc)
  simp only [isBlank, Bool.or_eq_true, decide_eq_true_eq] at hblank
  rcases hblank with ((rfl | rfl) | rfl) | rfl <;> decide

/-- Numbers are spelled with digits only. -/
theorem SpellsNatural.isDigit {cs : List Char} {n : Nat} (h : SpellsNatural cs n) :
    ∀ c ∈ cs, c.isDigit = true := by
  cases h with
  | zero => simp
  | digits _ hd hds => simpa [hd] using hds

/-- Numbers are spelled with at least one digit. -/
theorem SpellsNatural.exists_cons {cs : List Char} {n : Nat} (h : SpellsNatural cs n) :
    ∃ d ds, cs = d :: ds ∧ d.isDigit = true := by
  cases h with
  | zero => exact ⟨_, _, rfl, rfl⟩
  | digits _ hd _ => exact ⟨_, _, rfl, hd⟩

/-- Digits stand for the number that the library says. -/
theorem ofDigits_eq_ofDigitChars {cs : List Char} (hcs : ∀ c ∈ cs, c.isDigit = true) :
    Text.ofDigits 10 cs = Nat.ofDigitChars 10 cs 0 := by
  have hfrom (n : Nat) : cs.foldl (fun n c => 10 * n + (Text.hexDigit? c).getD 0) n =
      Nat.ofDigitChars 10 cs n := by
    induction cs generalizing n with
    | nil => rfl
    | cons c cs ih =>
      obtain ⟨hc, hcs⟩ := List.forall_mem_cons.mp hcs
      rw [List.foldl_cons, ih hcs, Nat.ofDigitChars_cons, Text.hexDigit?, if_pos hc]
      rfl
  exact hfrom 0

/-- All digits of a number are taken, -/
theorem takeWhile_digits {cs rest : List Char} (hcs : ∀ c ∈ cs, c.isDigit = true)
    (hrest : EndsNumber rest) : (cs ++ rest).takeWhile Char.isDigit = cs := by
  rw [List.takeWhile_append_of_pos hcs]
  cases rest with
  | nil => simp
  | cons c rest => simp [(hrest c rfl).1]

/-- and nothing else is. -/
theorem dropWhile_digits {cs rest : List Char} (hcs : ∀ c ∈ cs, c.isDigit = true)
    (hrest : EndsNumber rest) : (cs ++ rest).dropWhile Char.isDigit = rest := by
  rw [List.dropWhile_append_of_pos hcs]
  cases rest with
  | nil => rfl
  | cons c rest => simp [(hrest c rfl).1]

/-- A number is read up to its last digit, if no further digit follows. -/
theorem readNatural_of_spellsNatural {cs rest : List Char} {n : Nat} (h : SpellsNatural cs n)
    (hrest : EndsNumber rest) : readNatural (cs ++ rest) = some (n, rest) := by
  have hvalue : Text.ofDigits 10 cs = n := by
    rw [ofDigits_eq_ofDigitChars h.isDigit]
    cases h <;> rfl
  have hend : ∀ c tail, rest = c :: tail → c ≠ '.' ∧ c ≠ 'e' ∧ c ≠ 'E' := by
    rintro c tail rfl
    exact (hrest c rfl).2
  rw [readNatural, takeWhile_digits h.isDigit hrest, dropWhile_digits h.isDigit hrest]
  split
  · nomatch h
  · cases h with
    | digits hzero _ _ => exact absurd rfl hzero
  · -- neither a fraction nor an exponent follows
    split
    · exact absurd rfl (hend _ _ rfl).1
    · exact absurd rfl (hend _ _ rfl).2.1
    · exact absurd rfl (hend _ _ rfl).2.2
    · rw [hvalue]

/-- A number is read up to where it ends. -/
theorem readNumber_of_spellsNatural {cs rest : List Char} {n : Nat} (h : SpellsNatural cs n)
    (hrest : EndsNumber rest) : readNumber (cs ++ rest) = some (number n, rest) := by
  obtain ⟨d, ds, hcs, hd⟩ := h.exists_cons
  have hsign : d ≠ '-' := by rintro rfl; nomatch hd
  rw [readNumber.eq_2, readNatural_of_spellsNatural h hrest]
  · rfl
  · rintro tail heq
    simp_all

/-! ## Parts -/

section Parts

variable {α : Type} {P : List Char → α → Prop} {part : Rest → Option (α × Rest)} {closing : Char}
  {ws : List Char} {as : List α}

/-- After a part stand blanks, and then a comma or what closes a list or an object. -/
theorem endsNumber_after {after : List Char} (hafter : IsBlanks after) {c : Char}
    (hc : c = ',' ∨ c = ']' ∨ c = '\x7d') (rest : List Char) : EndsNumber (after ++ c :: rest) := by
  cases after with
  | nil =>
    intro d hd
    obtain rfl : c = d := by simpa using hd
    rcases hc with rfl | rfl | rfl <;> decide
  | cons b after => exact fun d hd => endsNumber_of_isBlanks hafter d hd

/-- Parts start with a part, after blanks, and what follows these is at least as long as there are
parts. -/
theorem SpellsParts.exists_opens (h : SpellsParts P ws as) (hopens : ∀ cs a, P cs a → Opens cs) :
    ∃ before tail, IsBlanks before ∧ Opens tail ∧ ws = before ++ tail ∧
      as.length ≤ tail.length := by
  have happend : ∀ {cs : List Char}, Opens cs → ∀ rest, Opens (cs ++ rest) := by
    rintro _ ⟨c, tail, rfl, hc⟩ rest
    exact ⟨c, tail ++ rest, rfl, hc⟩
  have hpos : ∀ {cs : List Char}, Opens cs → 0 < cs.length := by
    rintro _ ⟨c, tail, rfl, -⟩
    exact Nat.succ_pos _
  induction h with
  | one hbefore ha hafter =>
    have hcs := hopens _ _ ha
    refine ⟨_, _, hbefore, happend hcs _, rfl, ?_⟩
    have := hpos hcs
    simp
    omega
  | more hbefore ha hafter _ ih =>
    have hcs := hopens _ _ ha
    refine ⟨_, _, hbefore, happend hcs _, rfl, ?_⟩
    obtain ⟨before, tail, -, -, rfl, hlength⟩ := ih
    have := hpos hcs
    simp
    omega

/-- It does not matter whether blanks before parts have been skipped. -/
theorem readParts_skipBlanks (closing : Char) (part : Rest → Option (α × Rest)) (bound : Nat)
    (cs : Rest) :
    readParts closing part bound (skipBlanks cs) = readParts closing part bound cs := by
  have hidem : skipBlanks (skipBlanks cs) = skipBlanks cs := List.dropWhile_idempotent isBlank cs
  cases bound with
  | zero => rfl
  | succ bound => rw [readParts, readParts, hidem]

/-- Parts are read up to what closes them, if each of them is. -/
theorem readParts_of_spellsParts (hclosing : closing = ']' ∨ closing = '\x7d')
    (hopens : ∀ cs a, P cs a → Opens cs) (h : SpellsParts P ws as)
    (hpart : ∀ cs a rest, P cs a → cs.length ≤ ws.length → EndsNumber rest →
      part (cs ++ rest) = some (a, rest))
    {bound : Nat} (hbound : as.length ≤ bound) (rest : List Char) :
    readParts closing part bound (ws ++ closing :: rest) = some (as, rest) := by
  induction h generalizing bound with
  | @one before cs after a hbefore ha hafter =>
    have hblank : isBlank closing = false := by rcases hclosing with rfl | rfl <;> rfl
    obtain ⟨bound, rfl⟩ := Nat.exists_eq_add_of_le' hbound
    have hread := hpart cs a (after ++ closing :: rest) ha (by simp; omega)
      (endsNumber_after hafter (.inr hclosing) rest)
    simp only [List.append_assoc, List.length_singleton]
    rw [readParts, skipBlanks_append hbefore, skipBlanks_of_opens (hopens cs a ha), hread]
    simp only [skipBlanks_append hafter, skipBlanks_cons hblank, if_true]
  | @more before cs after tail a as hbefore ha hafter _ ih =>
    have hcomma : ',' ≠ closing := by rcases hclosing with rfl | rfl <;> decide
    obtain ⟨bound, rfl⟩ := Nat.exists_eq_add_of_le' hbound
    have hread := hpart cs a (after ++ ',' :: (tail ++ closing :: rest)) ha (by simp; omega)
      (endsNumber_after hafter (.inl rfl) _)
    have htail : readParts closing part (bound + as.length) (tail ++ closing :: rest) =
        some (as, rest) := by
      refine ih (fun cs a rest ha hle => hpart cs a rest ha ?_) (Nat.le_add_left _ _)
      simp
      omega
    simp only [List.append_assoc, List.cons_append, List.length_cons, ← Nat.add_assoc]
    rw [readParts, skipBlanks_append hbefore, skipBlanks_of_opens (hopens cs a ha), hread]
    simp only [skipBlanks_append hafter, skipBlanks_cons (show isBlank ',' = false from rfl),
      hcomma, if_false, if_true, htail]
    rfl

/-- Parts are read up to the closing bracket, if each of them is. -/
theorem readBlock_of_spellsParts (hclosing : closing = ']' ∨ closing = '\x7d')
    (hopens : ∀ cs a, P cs a → Opens cs) (h : SpellsParts P ws as)
    (hpart : ∀ cs a rest, P cs a → cs.length ≤ ws.length → EndsNumber rest →
      part (cs ++ rest) = some (a, rest)) (rest : List Char) :
    readBlock closing part (ws ++ closing :: rest) = some (as, rest) := by
  obtain ⟨before, _, hbefore, ⟨c, tail, rfl, hc, hlist, hobject⟩, rfl, hlength⟩ :=
    h.exists_opens hopens
  have hskip : skipBlanks (before ++ c :: tail ++ closing :: rest) =
      c :: (tail ++ closing :: rest) := by
    rw [List.append_assoc, skipBlanks_append hbefore, List.cons_append, skipBlanks_cons hc]
  have hopen : c ≠ closing := by
    rcases hclosing with rfl | rfl
    · exact hlist
    · exact hobject
  rw [readBlock, hskip]
  simp only [hopen, if_false]
  rw [← hskip, readParts_skipBlanks]
  refine readParts_of_spellsParts hclosing hopens h hpart ?_ rest
  simp at hlength ⊢
  omega

/-- There are no parts if nothing but blanks stands between the brackets. -/
theorem readBlock_of_isBlanks (hclosing : closing = ']' ∨ closing = '\x7d') {blanks : List Char}
    (hblanks : IsBlanks blanks) (part : Rest → Option (α × Rest)) (rest : List Char) :
    readBlock closing part (blanks ++ closing :: rest) = some ([], rest) := by
  have hblank : isBlank closing = false := by rcases hclosing with rfl | rfl <;> rfl
  rw [readBlock, skipBlanks_append hblanks, skipBlanks_cons hblank]
  simp

end Parts

/-! ## Values -/

/-- A member opens with a quote. -/
theorem SpellsMember.opens {P : List Char → Json → Prop} {cs : List Char} {m : String × Json}
    (h : SpellsMember P cs m) : Opens cs := by
  cases h
  exact ⟨'"', _, rfl, by decide, by decide, by decide⟩

/-- Every value opens with something that is not blank. -/
theorem Spells.opens {cs : List Char} {j : Json} (h : Spells cs j) : Opens cs := by
  cases h with
  | natural hn =>
    obtain ⟨d, ds, rfl, hd⟩ := hn.exists_cons
    refine ⟨d, ds, rfl, ?_, ?_, ?_⟩
    · rw [isBlank]
      simp
      refine ⟨⟨⟨?_, ?_⟩, ?_⟩, ?_⟩ <;> rintro rfl <;> nomatch hd
    · rintro rfl; nomatch hd
    · rintro rfl; nomatch hd
  | null | true | false | negative | string | noItems | items | noMembers | members =>
    exact ⟨_, _, rfl, by decide, by decide, by decide⟩

/-- A member is read if its value is. -/
theorem readMember_of_spellsMember {P : List Char → Json → Prop}
    {value : Rest → Option (Json × Rest)} {cs rest : List Char} {m : String × Json}
    (h : SpellsMember P cs m) (hopens : ∀ cs j, P cs j → Opens cs)
    (hvalue : ∀ vs j, P vs j → vs.length ≤ cs.length → value (vs ++ rest) = some (j, rest)) :
    readMember value (cs ++ rest) = some (m, rest) := by
  cases h with
  | @mk ws name before after vs j hname hbefore hafter hj =>
    have hread := hvalue vs j hj (by simp; omega)
    simp only [List.cons_append, List.append_assoc]
    rw [readMember, readString_of_spellsChars hname]
    simp only [skipBlanks_append hbefore, skipBlanks_cons (show isBlank ':' = false from rfl),
      skipBlanks_append hafter, skipBlanks_of_opens (hopens vs j hj), hread]
    rfl

/-- What starts with a digit is a number. -/
theorem readValue_digit {d : Char} (hd : d.isDigit = true) (depth : Nat) (rest : Rest) :
    readValue (depth + 1) (d :: rest) = readNumber (d :: rest) := by
  rw [readValue.eq_def]
  split
  · contradiction
  · split <;> first | rfl | (simp_all)

/-- A value is read up to its end, whatever follows a number not going on with it. -/
theorem readValue_of_spells (depth : Nat) {cs rest : List Char} {j : Json} (h : Spells cs j)
    (hdepth : cs.length ≤ depth) (hrest : EndsNumber rest) :
    readValue depth (cs ++ rest) = some (j, rest) := by
  induction depth generalizing cs rest j with
  | zero =>
    obtain ⟨c, tail, rfl, -⟩ := h.opens
    nomatch hdepth
  | succ depth ih =>
    cases h with
    | null | true | false => rfl
    | natural hn =>
      obtain ⟨d, ds, rfl, hd⟩ := hn.exists_cons
      rw [List.cons_append, readValue_digit hd]
      exact readNumber_of_spellsNatural hn hrest
    | negative hn =>
      rw [List.cons_append, readValue.eq_def]
      simp [readNumber, readNatural_of_spellsNatural hn hrest]
    | string hcs =>
      simp [readValue, readString_of_spellsChars hcs]
    | noItems hblanks =>
      simp [readValue, readBlock_of_isBlanks (.inl rfl) hblanks]
    | @items ws js hjs =>
      have hitem : ∀ cs j rest, Spells cs j → cs.length ≤ ws.length → EndsNumber rest →
          readValue depth (cs ++ rest) = some (j, rest) := by
        intro cs j rest hj hle
        exact ih hj (by simp at hdepth; omega)
      have hblock := readBlock_of_spellsParts (.inl rfl) (fun _ _ => Spells.opens) hjs hitem rest
      simp [readValue, hblock]
    | noMembers hblanks =>
      simp [readValue, readBlock_of_isBlanks (.inr rfl) hblanks]
    | @members ws ms hms =>
      have hmember : ∀ cs m rest, SpellsMember Spells cs m → cs.length ≤ ws.length →
          EndsNumber rest → readMember (readValue depth) (cs ++ rest) = some (m, rest) := by
        intro cs m rest hm hle hrest
        refine readMember_of_spellsMember hm (fun _ _ => Spells.opens) fun vs j hj hle' => ?_
        exact ih hj (by simp at hdepth; omega) hrest
      have hblock := readBlock_of_spellsParts (.inr rfl) (fun _ _ => SpellsMember.opens) hms hmember
        rest
      simp [readValue, hblock]

/-- The value that a text holds is found in it. -/
theorem parse_of_isTextOf {text : String} {j : Json} (h : IsTextOf text j) :
    parse text = some j := by
  obtain ⟨before, cs, after, hbefore, hj, hafter, htext⟩ := h
  have hskip : skipBlanks after = [] := List.dropWhile_eq_nil_iff.mpr hafter
  rw [parse, htext, skipBlanks_append hbefore, skipBlanks_of_opens hj.opens,
    readValue_of_spells _ hj (by simp; omega) (endsNumber_of_isBlanks hafter)]
  simp [hskip]

/-- A text holds one value at most. -/
theorem IsTextOf.unique {text : String} {j k : Json} (hj : IsTextOf text j)
    (hk : IsTextOf text k) : j = k :=
  Option.some.inj ((parse_of_isTextOf hj).symm.trans (parse_of_isTextOf hk))

end MigrationLint.Json
