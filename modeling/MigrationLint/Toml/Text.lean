import MigrationLint.Text.Literal

/-!
# Strings, keys and blanks of TOML

The readers here take the characters that are left and give back what they read and what is left
after it, or nothing if the text is ill formed.
-/

namespace MigrationLint.Toml

/-- What is left of a text. -/
abbrev Rest := List Char

/-- A space or a tab. -/
def isSpace (c : Char) : Bool :=
  c = ' ' || c = '\t'

/-- The character may stand in a comment or literal string: it is a tab or not a control
character. -/
def isPrintable (c : Char) : Bool :=
  c = '\t' || (0x20 ≤ c.toNat && c.toNat ≠ 0x7f)

/-- The character may stand in a bare key. -/
def isBare (c : Char) : Bool :=
  c.isAlphanum || c = '_' || c = '-'

/-- Skips spaces and tabs. -/
def skipSpaces (cs : Rest) : Rest :=
  cs.dropWhile isSpace

/-- Skips a comment, if there is one, up to the end of its line. -/
def skipComment : Rest → Rest
  | '#' :: cs => cs.dropWhile isPrintable
  | cs => cs

/-- Reads the end of a line, which the end of the text is too. -/
def lineEnd? : Rest → Option Rest
  | [] => some []
  | '\n' :: cs => some cs
  | '\r' :: '\n' :: cs => some cs
  | _ => none

/-- Skips what may stand at the end of a line, and the end of the line. -/
def skipToLineEnd? (cs : Rest) : Option Rest :=
  lineEnd? (skipComment (skipSpaces cs))

/-- Skips spaces, comments and line ends. Inside a comment everything printable is skipped. -/
def skipBlanks (inComment : Bool) : Rest → Rest
  | [] => []
  | '\n' :: cs => skipBlanks false cs
  | '\r' :: '\n' :: cs => skipBlanks false cs
  | c :: cs =>
    if inComment then if isPrintable c then skipBlanks true cs else c :: cs
    else if isSpace c then skipBlanks false cs
    else if c = '#' then skipBlanks true cs
    else c :: cs

/-- The character with a given code point, which must not be a surrogate. -/
def scalar? (n : Nat) : Option Char :=
  if n.isValidChar then some (Char.ofNat n) else none

/-- The character that a one-letter escape stands for. -/
def simpleEscape? : Char → Option Char
  | 'b' => some '\x08'
  | 't' => some '\t'
  | 'n' => some '\n'
  | 'f' => some '\x0c'
  | 'r' => some '\r'
  | 'e' => some '\x1b'
  | '"' => some '"'
  | '\\' => some '\\'
  | _ => none

/-- The number of digits after the letter of an escape that names a code point. -/
def escapeDigits? : Char → Option Nat
  | 'x' => some 2
  | 'u' => some 4
  | 'U' => some 8
  | _ => none

/-- What the next character of a string with escapes is part of. -/
inductive Reading
  /-- The text itself. -/
  | text
  /-- An escape, right after its backslash. -/
  | escape
  /-- The digits of an escape: how many follow the next one, and the value of those before it. -/
  | digits (more value : Nat)
  /-- The spaces after a backslash that ends a line. -/
  | lineEnd
  /-- The blanks below a backslash that ends a line. -/
  | blanks
  deriving DecidableEq, Repr

/-- The character is a line feed or the start of a line end of two characters. -/
def isLineEnd (c : Char) (cs : Rest) : Bool :=
  c = '\n' || (c = '\r' && cs.head? = some '\n')

/-- Reads the end of a string with three quotes, given what is left after a first quote. One or two
quotes may stand right before the three and belong to the text. -/
def closing? (quote : Char) : Rest → Option (List Char × Rest)
  | a :: b :: cs =>
    if a = quote ∧ b = quote then
      match cs.takeWhile (· = quote) with
      | [] => some ([], cs)
      | [_] => some ([quote], cs.drop 1)
      | _ => some ([quote, quote], cs.drop 2)
    else none
  | _ => none

/-- Reads the rest of a string with escapes and its closing quotes. Only a string of several lines
may hold line ends and single quotes, and drop a line end after a backslash together with the
blanks that follow. -/
def escapedText? (multiline : Bool) (reading : Reading) : Rest → Option (List Char × Rest)
  | [] => none
  | c :: cs =>
    let go := fun reading => escapedText? multiline reading cs
    let keep := fun d => (go .text).map fun (s, rest) => (d :: s, rest)
    match if reading = .blanks ∧ ¬(isSpace c ∨ isLineEnd c cs) then .text else reading with
    | .blanks => go .blanks
    | .lineEnd =>
      if c = '\n' then go .blanks else if isSpace c || isLineEnd c cs then go .lineEnd else none
    | .digits more value => do
      let digit ← Text.hexDigit? c
      match more with
      | 0 => (scalar? (16 * value + digit)).bind keep
      | more + 1 => go (.digits more (16 * value + digit))
    | .escape =>
      match simpleEscape? c, escapeDigits? c with
      | some d, _ => keep d
      | none, some count => go (.digits (count - 1) 0)
      | none, none =>
        if multiline then
          if c = '\n' then go .blanks
          else if isSpace c || isLineEnd c cs then go .lineEnd
          else none
        else none
    | .text =>
      if c = '\\' then go .escape
      else if c = '"' then
        if multiline then
          match closing? '"' cs with
          | some result => some result
          | none => keep c
        else some ([], cs)
      else if isPrintable c || (multiline && isLineEnd c cs) then keep c
      else none

/-- Reads the rest of a string without escapes and its closing quotes. Only a string of several
lines may hold line ends and single quotes. -/
def literalText? (multiline : Bool) : Rest → Option (List Char × Rest)
  | [] => none
  | c :: cs =>
    let keep := (literalText? multiline cs).map fun (s, rest) => (c :: s, rest)
    if c = '\'' then
      if multiline then
        match closing? '\'' cs with
        | some result => some result
        | none => keep
      else some ([], cs)
    else if isPrintable c || (multiline && isLineEnd c cs) then keep
    else none

/-- Skips a line end. The first line end of a string of several lines does not count. -/
def skipLineEnd : Rest → Rest
  | '\n' :: cs => cs
  | '\r' :: '\n' :: cs => cs
  | cs => cs

/-- Reads a string on one line. -/
def string? : Rest → Option (List Char × Rest)
  | '"' :: cs => escapedText? false .text cs
  | '\'' :: cs => literalText? false cs
  | _ => none

/-- Reads a string on one or on several lines. -/
def anyString? : Rest → Option (List Char × Rest)
  | '"' :: '"' :: '"' :: cs => escapedText? true .text (skipLineEnd cs)
  | '\'' :: '\'' :: '\'' :: cs => literalText? true (skipLineEnd cs)
  | cs => string? cs

/-- Reads one part of a key. -/
def keyPart? (cs : Rest) : Option (List Char × Rest) :=
  match string? cs with
  | some result => some result
  | none =>
    match cs.takeWhile isBare with
    | [] => none
    | name => some (name, cs.dropWhile isBare)

end MigrationLint.Toml
