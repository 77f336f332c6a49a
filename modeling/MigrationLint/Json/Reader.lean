import MigrationLint.Json.Basic
import MigrationLint.Text.Literal

/-!
# Reading JSON

`Json.parse` reads a text that holds exactly one JSON value. Blanks may stand between the parts of a
value. Numbers must be integers.
-/

namespace MigrationLint.Json

/-- What is left of a text. -/
abbrev Rest := List Char

/-- The character may stand between the parts of a value. -/
def isBlank (c : Char) : Bool :=
  c = ' ' || c = '\n' || c = '\r' || c = '\t'

/-- Skips blanks. -/
def skipBlanks (cs : Rest) : Rest :=
  cs.dropWhile isBlank

/-- The number that hexadecimal digits write. -/
def hexNumber? (cs : List Char) : Option Nat :=
  cs.foldlM (fun n c => (Text.hexDigit? c).map (16 * n + ·)) 0

/-- The character that a one-letter escape stands for. -/
def unescape? : Char → Option Char
  | '"' => some '"'
  | '\\' => some '\\'
  | '/' => some '/'
  | 'b' => some '\x08'
  | 'f' => some '\x0c'
  | 'n' => some '\n'
  | 'r' => some '\r'
  | 't' => some '\t'
  | _ => none

/-- The character that two escapes stand for together: the halves of a surrogate pair. -/
def joinPair? (high low : Nat) : Option Char :=
  if 0xdc00 ≤ low ∧ low < 0xe000 then
    some (Char.ofNat (0x10000 + (high - 0xd800) * 0x400 + (low - 0xdc00)))
  else none

/-- Puts a character in front of what is read. -/
def prepend (c : Char) (r : Option (List Char × Rest)) : Option (List Char × Rest) :=
  r.map fun (s, rest) => (c :: s, rest)

/-- Reads the rest of a string and its closing quote. -/
def readString : Rest → Option (List Char × Rest)
  | [] => none
  | '"' :: rest => some ([], rest)
  | '\\' :: 'u' :: a :: b :: c :: d :: rest =>
    match hexNumber? [a, b, c, d] with
    | none => none
    | some n =>
      if 0xd800 ≤ n ∧ n < 0xdc00 then
        match rest with
        | '\\' :: 'u' :: e :: f :: g :: h :: rest =>
          match (hexNumber? [e, f, g, h]).bind (joinPair? n) with
          | none => none
          | some ch => prepend ch (readString rest)
        | _ => none
      else if 0xdc00 ≤ n ∧ n < 0xe000 then none
      else prepend (Char.ofNat n) (readString rest)
  | '\\' :: c :: rest =>
    match unescape? c with
    | none => none
    | some ch => prepend ch (readString rest)
  | c :: rest => if c.toNat < 0x20 then none else prepend c (readString rest)

/-- Reads an integer without its sign. -/
def readNatural (cs : Rest) : Option (Nat × Rest) :=
  match cs.takeWhile Char.isDigit with
  | [] => none
  | '0' :: _ :: _ => none
  | digits =>
    match cs.dropWhile Char.isDigit with
    | '.' :: _ | 'e' :: _ | 'E' :: _ => none
    | rest => some (Text.ofDigits 10 digits, rest)

/-- Reads an integer. -/
def readNumber : Rest → Option (Json × Rest)
  | '-' :: rest => (readNatural rest).map fun (n, rest) => (number (-n), rest)
  | cs => (readNatural cs).map fun (n, rest) => (number n, rest)

/-- Reads at most `bound` parts with commas between them, up to a closing character. -/
def readParts {α : Type} (closing : Char) (part : Rest → Option (α × Rest)) :
    Nat → Rest → Option (List α × Rest)
  | 0, _ => none
  | bound + 1, cs =>
    match part (skipBlanks cs) with
    | none => none
    | some (a, rest) =>
      match skipBlanks rest with
      | [] => none
      | c :: rest =>
        if c = closing then some ([a], rest)
        else if c = ',' then
          (readParts closing part bound rest).map fun (as, rest) => (a :: as, rest)
        else none

/-- Reads parts up to a closing character; there may be none. -/
def readBlock {α : Type} (closing : Char) (part : Rest → Option (α × Rest)) (cs : Rest) :
    Option (List α × Rest) :=
  match skipBlanks cs with
  | [] => none
  | c :: rest =>
    if c = closing then some ([], rest) else readParts closing part (rest.length + 1) (c :: rest)

/-- Reads a member of an object. -/
def readMember (value : Rest → Option (Json × Rest)) : Rest → Option ((String × Json) × Rest)
  | '"' :: rest =>
    match readString rest with
    | none => none
    | some (name, rest) =>
      match skipBlanks rest with
      | ':' :: rest =>
        (value (skipBlanks rest)).map fun (j, rest) => ((String.ofList name, j), rest)
      | _ => none
  | _ => none

/-- Reads a value in which others nest less than `depth` deep. -/
def readValue : Nat → Rest → Option (Json × Rest)
  | 0, _ => none
  | depth + 1, cs =>
    match cs with
    | 'n' :: 'u' :: 'l' :: 'l' :: rest => some (null, rest)
    | 't' :: 'r' :: 'u' :: 'e' :: rest => some (boolean true, rest)
    | 'f' :: 'a' :: 'l' :: 's' :: 'e' :: rest => some (boolean false, rest)
    | '"' :: rest => (readString rest).map fun (s, rest) => (string (String.ofList s), rest)
    | '[' :: rest => (readBlock ']' (readValue depth) rest).map fun (js, rest) => (list js, rest)
    | '\x7b' :: rest =>
      (readBlock '\x7d' (readMember (readValue depth)) rest).map fun (ms, rest) =>
        (object ms, rest)
    | cs => readNumber cs

/-- Reads a text that holds exactly one value. -/
def parse (text : String) : Option Json :=
  match readValue (text.toList.length + 1) (skipBlanks text.toList) with
  | some (j, rest) => if (skipBlanks rest).isEmpty then some j else none
  | none => none

end MigrationLint.Json
