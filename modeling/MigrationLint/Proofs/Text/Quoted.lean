import Mathlib.Data.List.Flatten
import MigrationLint.Proofs.Json.RoundTrip
import MigrationLint.Proofs.Path.Normal
import MigrationLint.Text.Quoted

/-!
# Quoted strings show what they quote

Inside quotes a character may be written in one of several ways, and none of them is the start of
another one or of the closing quote. So a quoted string shows where it ends and which string it quotes,
whatever follows, and this goes on to lists. Line feeds never stand inside quotes.

* `EscapeOf`: the ways in which a character may be written;
* `escape_append_inj`: what is written for a character shows the character and where it ends;
* `quoted_append_inj`, `quotedList_injective`: so do quoted strings, and lists of them.
-/

namespace MigrationLint.Text

variable {c c' : Char} {ws ws' r r' x x' : List Char} {n m : Nat}

/-! ## Digits -/

/-- A number is read back from its hexadecimal digits. -/
theorem ofDigits_toDigits (n : Nat) : ofDigits 16 (Nat.toDigits 16 n) = n := by
  induction n using Nat.strongRecOn with
  | _ n ih =>
    have hlast (k : Nat) (hk : k < 16) : (hexDigit? k.digitChar).getD 0 = k := by
      rw [Json.hexDigit?_digitChar hk, Option.getD_some]
    rw [Nat.toDigits_eq_if (by decide)]
    split
    · next hlt =>
      have hone : ofDigits 16 [n.digitChar] = 16 * 0 + (hexDigit? n.digitChar).getD 0 := rfl
      rw [hone, hlast n hlt]
      omega
    · next hle =>
      have hstep : ofDigits 16 (Nat.toDigits 16 (n / 16) ++ [(n % 16).digitChar]) =
          16 * ofDigits 16 (Nat.toDigits 16 (n / 16)) +
            (hexDigit? (n % 16).digitChar).getD 0 := by
        rw [ofDigits, List.foldl_append]
        rfl
      rw [hstep, ih (n / 16) (by omega), hlast (n % 16) (by omega)]
      omega

theorem toDigits_injective (h : Nat.toDigits 16 n = Nat.toDigits 16 m) : n = m := by
  rw [← ofDigits_toDigits n, h, ofDigits_toDigits]

/-- Whatever holds of the sixteen digits holds of the digits of a number. -/
theorem forall_mem_toDigits {P : Char → Prop} (hP : ∀ k < 16, P k.digitChar) (n : Nat) :
    ∀ d ∈ Nat.toDigits 16 n, P d := by
  induction n using Nat.strongRecOn with
  | _ n ih =>
    rw [Nat.toDigits_eq_if (by decide)]
    split
    · next hlt => exact List.forall_mem_singleton.mpr (hP n hlt)
    · intro d hd
      rcases List.mem_append.mp hd with hd | hd
      · exact ih (n / 16) (by omega) d hd
      · rw [List.mem_singleton.mp hd]
        exact hP (n % 16) (by omega)

theorem brace_notMem_toDigits (n : Nat) : '\x7d' ∉ Nat.toDigits 16 n := fun h =>
  forall_mem_toDigits (P := (· ≠ '\x7d')) (by decide) n _ h rfl

theorem newline_notMem_toDigits (n : Nat) : '\n' ∉ Nat.toDigits 16 n := fun h =>
  forall_mem_toDigits (P := (· ≠ '\n')) (by decide) n _ h rfl

/-! ## Characters -/

/-- The letters that stand for a character after a backslash. -/
def escapeLetters : List (Char × Char) :=
  [('"', '"'), ('\\', '\\'), ('n', '\n'), ('r', '\r'), ('t', '\t'), ('0', '\x00')]

/-- What may be written for a character inside quotes. -/
inductive EscapeOf (c : Char) : List Char → Prop
  /-- The character itself. -/
  | plain (hquote : c ≠ '"') (hbackslash : c ≠ '\\') (hline : c ≠ '\n') : EscapeOf c [c]
  /-- The letter that stands for it. -/
  | letter {letter : Char} (h : (letter, c) ∈ escapeLetters) : EscapeOf c ['\\', letter]
  /-- Its code point. -/
  | code : EscapeOf c ('\\' :: 'u' :: '\x7b' :: (Nat.toDigits 16 c.toNat ++ ['\x7d']))

theorem escapeOf_escape (c : Char) : EscapeOf c (escape c) := by
  rw [escape]
  -- six characters have a letter
  iterate 6
    split
    · next h => subst h; exact .letter (by decide)
  split
  · exact .code
  · exact .plain ‹_› ‹_› ‹_›

/-- A letter stands for one character. -/
theorem eq_of_mem_escapeLetters {letter : Char} (h : (letter, c) ∈ escapeLetters)
    (h' : (letter, c') ∈ escapeLetters) : c = c' := by
  have hall : ∀ p ∈ escapeLetters, ∀ q ∈ escapeLetters, p.1 = q.1 → p.2 = q.2 := by decide
  exact hall _ h _ h' rfl

theorem ne_of_mem_escapeLetters {letter : Char} (h : (letter, c) ∈ escapeLetters) :
    letter ≠ 'u' := by
  have hall : ∀ p ∈ escapeLetters, p.1 ≠ 'u' := by decide
  exact hall _ h

/-- What stands before the first occurrence of a character is determined. -/
theorem append_cons_inj (hx : c ∉ x) (hx' : c ∉ x') (h : x ++ c :: r = x' ++ c :: r') :
    x = x' ∧ r = r' := by
  have hsplit := congrArg (List.splitOn c) h
  rw [List.splitOn_append_cons_self, List.splitOn_append_cons_self, List.splitOn_eq_singleton hx,
    List.splitOn_eq_singleton hx'] at hsplit
  obtain rfl : x = x' := (List.cons.inj hsplit).1
  exact ⟨rfl, (List.cons.inj (List.append_cancel_left h)).2⟩

/-- What is written for a character shows the character, and where it ends. -/
theorem EscapeOf.append_inj (hc : EscapeOf c ws) (hc' : EscapeOf c' ws')
    (h : ws ++ r = ws' ++ r') : c = c' ∧ r = r' := by
  -- the first character tells a plain one from the others, and the second one these from each other
  cases hc with
  | plain _ hbackslash _ =>
    cases hc' with
    | plain => exact List.cons.inj h
    | letter => exact absurd (List.cons.inj h).1 hbackslash
    | code => exact absurd (List.cons.inj h).1 hbackslash
  | letter hletter =>
    cases hc' with
    | plain _ hbackslash _ => exact absurd (List.cons.inj h).1.symm hbackslash
    | letter hletter' =>
      obtain ⟨rfl, hr⟩ := List.cons.inj (List.cons.inj h).2
      exact ⟨eq_of_mem_escapeLetters hletter hletter', hr⟩
    | code => exact absurd (List.cons.inj (List.cons.inj h).2).1 (ne_of_mem_escapeLetters hletter)
  | code =>
    cases hc' with
    | plain _ hbackslash _ => exact absurd (List.cons.inj h).1.symm hbackslash
    | letter hletter =>
      exact absurd (List.cons.inj (List.cons.inj h).2).1.symm (ne_of_mem_escapeLetters hletter)
    | code =>
      -- the brace ends the digits, and no digit is one
      have hdigits : Nat.toDigits 16 c.toNat ++ '\x7d' :: r =
          Nat.toDigits 16 c'.toNat ++ '\x7d' :: r' := by
        simpa using h
      obtain ⟨hnumber, hr⟩ :=
        append_cons_inj (brace_notMem_toDigits _) (brace_notMem_toDigits _) hdigits
      exact ⟨Char.toNat_inj.mp (toDigits_injective hnumber), hr⟩

theorem escape_append_inj (h : escape c ++ r = escape c' ++ r') : c = c' ∧ r = r' :=
  (escapeOf_escape c).append_inj (escapeOf_escape c') h

/-- No character is written in a way that starts with a quote. -/
theorem EscapeOf.append_ne_quote (hc : EscapeOf c ws) : ws ++ r ≠ '"' :: r' := by
  intro h
  cases hc with
  | plain hquote => exact hquote (List.cons.inj h).1
  | letter => exact absurd (List.cons.inj h).1 (by decide)
  | code => exact absurd (List.cons.inj h).1 (by decide)

theorem EscapeOf.newline_notMem (hc : EscapeOf c ws) : '\n' ∉ ws := by
  cases hc with
  | plain _ _ hline => simpa using hline.symm
  | letter h =>
    have hall : ∀ p ∈ escapeLetters, '\n' ∉ ['\\', p.1] := by decide
    exact hall _ h
  | code => simp [newline_notMem_toDigits]

/-! ## Strings -/

/-- What is written for characters shows them, up to the closing quote. -/
theorem escapes_append_inj {cs cs' : List Char}
    (h : cs.flatMap escape ++ '"' :: r = cs'.flatMap escape ++ '"' :: r') : cs = cs' ∧ r = r' := by
  induction cs generalizing cs' with
  | nil =>
    cases cs' with
    | nil => exact ⟨rfl, (List.cons.inj h).2⟩
    | cons c' cs' =>
      rw [List.flatMap_cons, List.append_assoc] at h
      exact absurd h.symm (escapeOf_escape c').append_ne_quote
  | cons c cs ih =>
    rw [List.flatMap_cons, List.append_assoc] at h
    cases cs' with
    | nil => exact absurd h (escapeOf_escape c).append_ne_quote
    | cons c' cs' =>
      rw [List.flatMap_cons, List.append_assoc] at h
      obtain ⟨rfl, hrest⟩ := escape_append_inj h
      obtain ⟨rfl, hr⟩ := ih hrest
      exact ⟨rfl, hr⟩

theorem toList_quoted (s : String) :
    (quoted s).toList = '"' :: (s.toList.flatMap escape ++ ['"']) := by
  rw [quoted, String.toList_ofList, List.cons_append]

/-- A quoted string shows what it quotes, and where it ends. -/
theorem quoted_append_inj {s s' : String}
    (h : (quoted s).toList ++ r = (quoted s').toList ++ r') : s = s' ∧ r = r' := by
  rw [toList_quoted, toList_quoted] at h
  -- without the opening quotes
  have hinside : s.toList.flatMap escape ++ '"' :: r = s'.toList.flatMap escape ++ '"' :: r' := by
    simpa using h
  obtain ⟨hs, hr⟩ := escapes_append_inj hinside
  exact ⟨String.toList_inj.mp hs, hr⟩

theorem quoted_injective : Function.Injective quoted := by
  intro s s' h
  have htext : (quoted s).toList ++ [] = (quoted s').toList ++ [] := by rw [h]
  exact (quoted_append_inj htext).1

theorem newline_notMem_quoted (s : String) : '\n' ∉ (quoted s).toList := by
  simp [toList_quoted, fun c => (escapeOf_escape c).newline_notMem]

/-! ## Lists of strings -/

/-- The quoted strings after the first one, and what closes their list. -/
def quotedTail (ss : List String) : List Char :=
  ss.flatMap (fun s => ',' :: ' ' :: (quoted s).toList) ++ [']']

theorem toList_quotedList_nil : (quotedList []).toList = ['[', ']'] := rfl

theorem toList_quotedList_cons (s : String) (ss : List String) :
    (quotedList (s :: ss)).toList = '[' :: ((quoted s).toList ++ quotedTail ss) := by
  have hparts : (String.intercalate ", " ((s :: ss).map quoted)).toList =
      (quoted s).toList ++ ss.flatMap (fun s => ',' :: ' ' :: (quoted s).toList) := by
    rw [String.toList_intercalate]
    induction ss generalizing s with
    | nil => simp
    | cons s' ss ih => simpa using ih s'
  rw [quotedList, String.toList_append, String.toList_append, hparts, quotedTail]
  simp

/-- After a string, a comma tells that the list goes on. -/
theorem quotedTail_injective : Function.Injective quotedTail := by
  intro ss
  induction ss with
  | nil =>
    intro ss' h
    cases ss' with
    | nil => rfl
    | cons s' ss' => exact absurd (List.cons.inj h).1 (by decide)
  | cons s ss ih =>
    intro ss' h
    cases ss' with
    | nil => exact absurd (List.cons.inj h).1 (by decide)
    | cons s' ss' =>
      have hrest : (quoted s).toList ++ quotedTail ss = (quoted s').toList ++ quotedTail ss' := by
        simpa [quotedTail] using h
      obtain ⟨rfl, htail⟩ := quoted_append_inj hrest
      rw [ih htail]

/-- A list of quoted strings shows each of them. -/
theorem quotedList_injective : Function.Injective quotedList := by
  intro ss ss' h
  have hlist : (quotedList ss).toList = (quotedList ss').toList := congrArg String.toList h
  cases ss with
  | nil =>
    cases ss' with
    | nil => rfl
    | cons s' ss' =>
      rw [toList_quotedList_nil, toList_quotedList_cons, toList_quoted] at hlist
      exact absurd (List.cons.inj (List.cons.inj hlist).2).1 (by decide)
  | cons s ss =>
    cases ss' with
    | nil =>
      rw [toList_quotedList_nil, toList_quotedList_cons, toList_quoted] at hlist
      exact absurd (List.cons.inj (List.cons.inj hlist).2).1 (by decide)
    | cons s' ss' =>
      rw [toList_quotedList_cons, toList_quotedList_cons] at hlist
      obtain ⟨rfl, htail⟩ := quoted_append_inj (List.cons.inj hlist).2
      rw [quotedTail_injective htail]

theorem newline_notMem_quotedList (ss : List String) : '\n' ∉ (quotedList ss).toList := by
  cases ss with
  | nil => decide
  | cons s ss => simp [toList_quotedList_cons, quotedTail, newline_notMem_quoted]

end MigrationLint.Text
