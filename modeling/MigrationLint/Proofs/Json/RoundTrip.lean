import MigrationLint.Json.Printer
import MigrationLint.Proofs.Json.Grammar

/-!
# Reading what has been written

Every value is written as well-formed JSON for this value, and a text is well formed for one value
only. So reading the text gives the value back, and values that are written alike are equal.

* `spells_print`: what is written on lines of any level is well formed;
* `isTextOf_text`: so is a text that has been written, also with blanks after it.
-/

namespace MigrationLint.Json

/-! ## Strings -/

/-- A digit that is written is read back. -/
theorem hexDigit?_digitChar {n : Nat} (hn : n < 16) : Text.hexDigit? n.digitChar = some n := by
  have hall : ∀ n < 16, Text.hexDigit? n.digitChar = some n := by decide
  exact hall n hn

/-- Escaping a character spells it. -/
theorem spellsChar_escape (c : Char) : SpellsChar (escape c) c := by
  rw [escape]
  -- seven characters have an escape of one letter
  iterate 7
    split
    · next h => subst h; exact .short (by decide)
  split
  · next hcontrol =>
    have hcode : SpellsCode ['0', '0', Nat.digitChar (c.toNat / 16), Nat.digitChar (c.toNat % 16)]
        (0x1000 * 0 + 0x100 * 0 + 0x10 * (c.toNat / 16) + c.toNat % 16) :=
      .mk rfl rfl (hexDigit?_digitChar (by omega)) (hexDigit?_digitChar (by omega))
    rw [show 0x1000 * 0 + 0x100 * 0 + 0x10 * (c.toNat / 16) + c.toNat % 16 = c.toNat by omega]
      at hcode
    exact .code hcode
  · next hquote hbackslash _ _ _ _ _ hcontrol =>
    exact .plain hquote hbackslash (Nat.le_of_not_lt hcontrol)

/-- Escaping characters one by one spells them. -/
theorem spellsChars_escape (cs : List Char) : SpellsChars (cs.flatMap escape) cs := by
  induction cs with
  | nil => exact .nil
  | cons c cs ih => exact .cons (spellsChar_escape c) ih

/-! ## Numbers -/

/-- The digits of a number that is not zero do not start with zero. -/
theorem toDigits_eq_cons {n : Nat} (hn : n ≠ 0) :
    ∃ d ds, Nat.toDigits 10 n = d :: ds ∧ d ≠ '0' := by
  induction n using Nat.strongRecOn with
  | _ n ih =>
    rw [Nat.toDigits_eq_if (by decide)]
    split
    · next hlt =>
      refine ⟨n.digitChar, [], rfl, ?_⟩
      have hall : ∀ n < 10, n ≠ 0 → n.digitChar ≠ '0' := by decide
      exact hall n hlt hn
    · obtain ⟨d, ds, hds, hd⟩ := ih (n / 10) (by omega) (by omega)
      exact ⟨d, ds ++ [(n % 10).digitChar], by rw [hds]; rfl, hd⟩

/-- Digits spell their number. -/
theorem spellsNatural_toDigits (n : Nat) : SpellsNatural (Nat.toDigits 10 n) n := by
  by_cases hn : n = 0
  · subst hn
    exact .zero
  · obtain ⟨d, ds, hds, hd⟩ := toDigits_eq_cons hn
    have hdigits : ∀ c ∈ d :: ds, c.isDigit = true := by
      intro c hc
      exact Nat.isDigit_of_mem_toDigits (by decide) (by decide) (hds ▸ hc)
    obtain ⟨hfirst, hrest⟩ := List.forall_mem_cons.mp hdigits
    have hspells := SpellsNatural.digits hd hfirst hrest
    rw [← hds, Nat.ofDigitChars_toDigits (by decide) (by decide)] at hspells
    exact hspells

/-- Integers are written as values. -/
theorem spells_number (n : Int) : Spells (toString n).toList (number n) := by
  cases n with
  | ofNat n =>
    rw [show (toString (Int.ofNat n)).toList = Nat.toDigits 10 n from Nat.toList_repr]
    exact .natural (spellsNatural_toDigits n)
  | negSucc n =>
    have hdigits : (toString (Int.negSucc n)).toList = '-' :: Nat.toDigits 10 (n + 1) := by
      show ("-" ++ (n + 1).repr).toList = _
      rw [String.toList_append, Nat.toList_repr]
      rfl
    rw [hdigits]
    exact .negative (spellsNatural_toDigits (n + 1))

/-! ## Lists and objects -/

/-- A new line is blank, however deep it is indented. -/
theorem isBlanks_newLine (level : Nat) : IsBlanks (newLine level) := by
  intro c hc
  rcases List.mem_cons.mp hc with rfl | hc
  · rfl
  · rw [List.eq_of_mem_replicate hc]
    rfl

/-- Written parts between brackets, if there are any. -/
theorem exists_spellsParts_block {α : Type} {P : List Char → α → Prop} {parts : List (List Char)}
    {as : List α} (h : List.Forall₂ P parts as) (hne : as ≠ []) (opening closing : Char)
    (level : Nat) :
    ∃ ws, block opening closing level parts = opening :: (ws ++ [closing]) ∧
      SpellsParts P ws as := by
  cases h with
  | nil => exact absurd rfl hne
  | @cons part a parts as hpart hparts =>
    refine ⟨newLine (level + 1) ++ (part ++ (parts.flatMap
      (fun p => ',' :: newLine (level + 1) ++ p) ++ newLine level)), by simp [block], ?_⟩
    -- by induction on the parts after the first one
    induction hparts generalizing part a with
    | nil => exact .one (isBlanks_newLine _) hpart (isBlanks_newLine _)
    | @cons next b parts as hnext _ ih =>
      have hrest := ih hnext (List.cons_ne_nil _ _)
      simpa using SpellsParts.more (isBlanks_newLine (level + 1)) hpart isBlanks_nil hrest

/-! ## Values -/

mutual

/-- Printing a value spells it, at any level. -/
theorem spells_print (level : Nat) : (j : Json) → Spells (j.print level) j
  | null => .null
  | boolean true => .true
  | boolean false => .false
  | number n => by rw [print]; exact spells_number n
  | string s => by
    have hs := Spells.string (spellsChars_escape s.toList)
    rw [String.ofList_toList] at hs
    exact hs
  | list [] => .noItems isBlanks_nil
  | list (j :: js) => by
    obtain ⟨ws, hblock, hjs⟩ := exists_spellsParts_block (spells_printItems (level + 1) (j :: js))
      (List.cons_ne_nil _ _) '[' ']' level
    rw [print, hblock]
    exact .items hjs
  | object [] => .noMembers isBlanks_nil
  | object (m :: ms) => by
    obtain ⟨ws, hblock, hms⟩ := exists_spellsParts_block
      (spellsMember_printMembers (level + 1) (m :: ms)) (List.cons_ne_nil _ _) '\x7b' '\x7d' level
    rw [print, hblock]
    exact .members hms

/-- Printing the items of a list spells each of them. -/
theorem spells_printItems (level : Nat) : (js : List Json) →
    List.Forall₂ Spells (printItems level js) js
  | [] => .nil
  | j :: js => .cons (spells_print level j) (spells_printItems level js)

/-- Printing the members of an object spells each of them. -/
theorem spellsMember_printMembers (level : Nat) : (ms : List (String × Json)) →
    List.Forall₂ (SpellsMember Spells) (printMembers level ms) ms
  | [] => .nil
  | (name, j) :: ms => by
    refine .cons ?_ (spellsMember_printMembers level ms)
    have hname := spellsChars_escape name.toList
    have hspace : IsBlanks [' '] := by decide
    simpa [quote] using SpellsMember.mk hname isBlanks_nil hspace (spells_print level j)

end

/-- The printed form is a text of the value, with blanks after it or without. -/
theorem isTextOf_text (j : Json) {after : String} (hafter : IsBlanks after.toList) :
    IsTextOf (j.text ++ after) j := by
  refine ⟨[], j.print 0, after.toList, isBlanks_nil, spells_print 0 j, hafter, ?_⟩
  simp [text]

end MigrationLint.Json
