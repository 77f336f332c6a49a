import MigrationLint.Text.Alphanumeric
import MigrationLint.Text.Literal

/-!
# Patterns for values

The value of a field is asked for by a number or by a regular expression. All that counts here is
whether a text is one of these. The readers give back what is left of a text, or nothing if what
they read is ill formed. A text has no closing brace, so nothing that opens one is well formed, and
the borders of words cannot be asked for.
-/

namespace MigrationLint.Log.ValuePattern

/-! ## Numbers -/

/-- What is left after the decimal digits of a text. -/
def afterDigits (cs : List Char) : List Char :=
  cs.dropWhile Char.isDigit

/-- What is left after the sign of a text, if there is one. -/
def afterSign : List Char → List Char
  | '+' :: cs | '-' :: cs => cs
  | cs => cs

/-- The text is an exponent, or empty. -/
def isExponent : List Char → Bool
  | [] => true
  | c :: cs =>
    let digits := afterSign cs
    (c = 'e' || c = 'E') && !digits.isEmpty && digits.all Char.isDigit

/-- The text is a decimal number, with or without a sign. -/
def isNumber (cs : List Char) : Bool :=
  let cs := afterSign cs
  if ["inf", "infinity", "nan"].contains (Text.lowered (String.ofList cs)) then true
  else
    let whole := cs.takeWhile Char.isDigit
    match afterDigits cs with
    | '.' :: rest => !(whole.isEmpty && (rest.takeWhile Char.isDigit).isEmpty) &&
        isExponent (afterDigits rest)
    | rest => !whole.isEmpty && isExponent rest

/-! ## Escapes -/

/-- What an escape stands for. -/
inductive Escape
  /-- One character. -/
  | character (c : Char)
  /-- One character of a set. -/
  | set
  /-- A place between characters. -/
  | place
  deriving DecidableEq, Repr

/-- Reads the digits that name a code point. -/
def codePoint? (count : Nat) (cs : List Char) : Option (Escape × List Char) :=
  let digits := cs.take count
  let n := Text.ofDigits 16 digits
  if digits.length = count ∧ digits.all (fun c => (Text.hexDigit? c).isSome) ∧ n.isValidChar then
    some (.character (Char.ofNat n), cs.drop count)
  else none

/-- Reads an escape after its backslash. -/
def escape? : List Char → Option (Escape × List Char)
  | [] => none
  | 'x' :: cs => codePoint? 2 cs
  | 'u' :: cs => codePoint? 4 cs
  | 'U' :: cs => codePoint? 8 cs
  | 'p' :: c :: cs | 'P' :: c :: cs =>
    if c.toUpper ∈ ['C', 'L', 'M', 'N', 'P', 'S', 'Z'] then some (.set, cs) else none
  | c :: cs =>
    if c ∈ ['d', 's', 'w', 'D', 'S', 'W'] then some (.set, cs)
    else if c = 'A' ∨ c = 'z' then some (.place, cs)
    else if c = 'a' then some (.character '\x07', cs)
    else if c = 'f' then some (.character '\x0c', cs)
    else if c = 't' then some (.character '\t', cs)
    else if c = 'n' then some (.character '\n', cs)
    else if c = 'r' then some (.character '\r', cs)
    else if c = 'v' then some (.character '\x0b', cs)
    else if c.isAlphanum ∨ c = '<' ∨ c = '>' ∨ 0x80 ≤ c.toNat then none
    else some (.character c, cs)

/-! ## Classes -/

/-- The names of classes inside classes. -/
def classNames : List String :=
  ["alnum", "alpha", "ascii", "blank", "cntrl", "digit", "graph", "lower", "print", "punct",
    "space", "upper", "word", "xdigit"]

/-- Reads a class with a name, after its opening bracket. -/
def namedClass? : List Char → Option (List Char)
  | ':' :: cs =>
    let cs := match cs with
      | '^' :: rest => rest
      | rest => rest
    match cs.dropWhile (· ≠ ':') with
    | ':' :: ']' :: rest =>
      if classNames.contains (String.ofList (cs.takeWhile (· ≠ ':'))) then some rest else none
    | _ => none
  | _ => none

/-- What is left after the start of a class: hyphens, or a closing bracket, that stand first. -/
def afterClassStart (cs : List Char) : List Char :=
  let cs := match cs with
    | '^' :: rest => rest
    | rest => rest
  match cs with
  | ']' :: rest => rest
  | cs => cs.dropWhile (· = '-')

/-- Reads a character of a class or an escape. -/
def member? : List Char → Option (Escape × List Char)
  | [] => none
  | '\\' :: cs => escape? cs
  | c :: cs => some (.character c, cs)

/-- Reads a member of a class, or a range. A hyphen before a closing bracket or another hyphen makes
no range. -/
def range? (cs : List Char) : Option (List Char) := do
  let (low, rest) ← member? cs
  let isRange := match rest with
    | '-' :: c :: _ => c ≠ ']' && c ≠ '-'
    | _ => false
  if isRange then
    match low, ← member? (rest.drop 1) with
    | .character a, (.character b, rest) => if a ≤ b then some rest else none
    | _, _ => none
  else if low = .place then none
  else some rest

/-- Reads at most `bound` members of a class and its closing bracket. There are `depth` classes
around it. -/
def classUpTo? (depth : Nat) : Nat → List Char → Option (List Char)
  | 0, _ => none
  | bound + 1, cs =>
    match cs with
    | [] => none
    | '[' :: rest =>
      match namedClass? rest with
      | some rest => classUpTo? depth bound rest
      | none => classUpTo? (depth + 1) bound (afterClassStart rest)
    | ']' :: rest => if depth = 0 then some rest else classUpTo? (depth - 1) bound rest
    | '&' :: '&' :: rest | '-' :: '-' :: rest | '~' :: '~' :: rest => classUpTo? depth bound rest
    | cs => (range? cs).bind (classUpTo? depth bound)

/-- Reads a class after its opening bracket. -/
def class? (cs : List Char) : Option (List Char) :=
  classUpTo? 0 (cs.length + 1) (afterClassStart cs)

/-! ## Groups -/

/-- Reads the name of a group up to its closing bracket. -/
def groupName? (first : Bool) : List Char → Option (List Char)
  | [] => none
  | c :: cs =>
    if c = '>' then if first then none else some cs
    else if c = '_' || (Text.isAlphanumeric c && !(first && c.isDigit)) ||
        (!first && (c = '.' || c = '[' || c = ']')) then
      groupName? false cs
    else none

/-- Reads the flags at the start of a group, given those before, last one first. The answer says
whether there is a group after them, and what is left. -/
def flags? (before : List Char) : List Char → Option (Bool × List Char)
  | [] => none
  | c :: cs =>
    if c = ':' ∨ c = ')' then
      if before.head? = some '-' ∨ (c = ')' ∧ before.isEmpty) then none
      else some (c = ':', cs)
    else if c ∈ ['-', 'i', 'm', 's', 'U', 'u', 'R', 'x'] ∧ c ∉ before then flags? (c :: before) cs
    else none

/-- Reads the start of a group after its opening bracket. -/
def groupStart? : List Char → Option (Bool × List Char)
  | '?' :: 'P' :: '<' :: cs => (groupName? true cs).map (true, ·)
  | '?' :: '<' :: cs => (groupName? true cs).map (true, ·)
  | '?' :: cs => flags? [] cs
  | cs => some (true, cs)

/-! ## Expressions -/

/-- At most `bound` characters form the rest of an expression in which `depth` groups are open. If
`repeatable` holds there is something that can be repeated. -/
def isExpressionUpTo (depth : Nat) (repeatable : Bool) : Nat → List Char → Bool
  | 0, _ => false
  | bound + 1, cs =>
    match cs with
    | [] => depth = 0
    | '(' :: rest =>
      match groupStart? rest with
      | none => false
      | some (isGroup, rest) =>
        isExpressionUpTo (if isGroup then depth + 1 else depth) false bound rest
    | ')' :: rest => depth ≠ 0 && isExpressionUpTo (depth - 1) true bound rest
    | '|' :: rest => isExpressionUpTo depth false bound rest
    | '[' :: rest => (class? rest).any (isExpressionUpTo depth true bound)
    | '\\' :: rest => (escape? rest).any fun e => isExpressionUpTo depth true bound e.2
    | c :: rest =>
      if c = '?' ∨ c = '*' ∨ c = '+' then
        repeatable && isExpressionUpTo depth true bound (if rest.head? = some '?' then rest.drop 1
          else rest)
      else c ≠ '\x7b' && isExpressionUpTo depth true bound rest

/-- The text is a number or a regular expression. -/
def isWellFormed (cs : List Char) : Bool :=
  isNumber cs || isExpressionUpTo 0 false (cs.length + 1) cs

end MigrationLint.Log.ValuePattern
