import MigrationLint.Toml.Scalar
import MigrationLint.Toml.Table

/-!
# The syntax of TOML

A document is a sequence of entries and headers, one to a line. `Document.ofText?` reads it and puts
its tables together. Arrays and values between braces nest up to a fixed depth.
-/

namespace MigrationLint.Toml

/-- A text that is being read. -/
structure Input where
  /-- The number of characters read. -/
  offset : Nat
  /-- What is left. -/
  rest : Rest

/-- Reads something from a text, or finds it ill formed. -/
abbrev Reader := StateT Input Option

namespace Reader

/-- Reads with a function on what is left. -/
def lexeme {α : Type} (read : Rest → Option (α × Rest)) : Reader α :=
  fun i => (read i.rest).map fun (a, rest) =>
    (a, ⟨i.offset + (i.rest.length - rest.length), rest⟩)

/-- Skips with a function on what is left. -/
def skip (f : Rest → Rest) : Reader Unit :=
  lexeme fun cs => some ((), f cs)

/-- Reads something together with its span. -/
def spanned {α : Type} (read : Reader α) : Reader (Spanned α) := do
  let first := (← get).offset
  let value ← read
  return ⟨⟨first, (← get).offset⟩, value⟩

/-- The next character, which is not read yet. -/
def next? : Reader (Option Char) := do
  return (← get).rest.head?

/-- Reads a given character. -/
def expect (c : Char) : Reader Unit :=
  lexeme fun cs => (skip? c cs).map ((), ·)

/-- Reads a given character if it is the next one. -/
def accept (c : Char) : Reader Bool := do
  if (← next?) = some c then
    expect c
    return true
  else return false

/-- A bound on the number of parts that can still be read. -/
def bound : Reader Nat := do
  return (← get).rest.length + 1

/-- How deep values may nest, and how many parts a key may have. -/
def maxDepth : Nat := 80

/-- Reads a key of at most `bound` parts and the spaces after it. -/
def pathUpTo : Nat → Reader KeyPath
  | 0 => failure
  | bound + 1 => do
    let part ← spanned (lexeme keyPart?)
    let key : Key := ⟨part.span, String.ofList part.value⟩
    skip skipSpaces
    if ← accept '.' then
      skip skipSpaces
      let path ← pathUpTo bound
      return ⟨key :: path.steps, path.last⟩
    else return ⟨[], key⟩

/-- Reads a key and the spaces after it. -/
def path : Reader KeyPath :=
  pathUpTo maxDepth

/-- Reads a key and its value, skipping with `skipped` what may stand around the sign between
them. -/
def entry (skipped : Rest → Rest) (value : Reader (Spanned Value)) : Reader Entry := do
  let path ← path
  skip skipped
  expect '='
  skip skipped
  return ⟨path, ← value⟩

/-- Reads at most `bound` items with commas between them, up to a closing character. A comma may
follow the last one. -/
def itemsUpTo {α : Type} (close : Char) (item : Reader α) : Nat → Reader (List α)
  | 0 => failure
  | bound + 1 => do
    skip (skipBlanks false)
    if ← accept close then return []
    let first ← item
    skip (skipBlanks false)
    if ← accept ',' then
      return first :: (← itemsUpTo close item bound)
    expect close
    return [first]

/-- Reads items between an opening and a closing character. -/
def items {α : Type} (openChar close : Char) (item : Reader α) : Reader (List α) := do
  expect openChar
  itemsUpTo close item (← bound)

/-- Reads the values of an array. -/
def array (value : Reader (Spanned Value)) : Reader Value :=
  return .array false (← items '[' ']' value)

/-- Reads a table between braces. It may go over several lines, but a key may not. -/
def inlineTable (value : Reader (Spanned Value)) : Reader Value := do
  let entries ← items '{' '}' (entry (skipBlanks false) value)
  let table ← Table.addAll? ⟨.inline, []⟩ entries
  return .table table

/-- Reads a value that is not made up of others. -/
def simpleValue : Reader Value := do
  if (← next?) = some '"' ∨ (← next?) = some '\'' then
    return .string (String.ofList (← lexeme anyString?))
  else lexeme bareValue?

/-- Reads a value in which others nest at most `depth` deep. -/
def value : Nat → Reader (Spanned Value)
  | 0 => spanned simpleValue
  | depth + 1 => spanned do
    match ← next? with
    | some '[' => array (value depth)
    | some '{' => inlineTable (value depth)
    | _ => simpleValue

/-- Reads a header. -/
def header : Reader Header := do
  let read : Reader (Bool × KeyPath) := do
    expect '['
    let ofArray ← accept '['
    skip skipSpaces
    let path ← path
    expect ']'
    if ofArray then expect ']'
    return (ofArray, path)
  let h ← spanned read
  return ⟨h.value.2, h.span, h.value.1⟩

/-- What a line holds. -/
inductive Line
  | blank
  | entry (entry : Entry)
  | header (header : Header)

/-- Reads a line. -/
def line : Reader Line := do
  skip skipSpaces
  let content ←
    match ← next? with
    | none | some '#' | some '\n' | some '\r' => pure .blank
    | some '[' => .header <$> header
    | some _ => .entry <$> entry skipSpaces (value maxDepth)
  lexeme fun cs => (skipToLineEnd? cs).map ((), ·)
  return content

/-- Reads at most `bound` lines, up to the end of the text. They come as the entries above the
first header and the sections below. -/
def linesUpTo : Nat → Reader (List Entry × List Section)
  | 0 => failure
  | bound + 1 => do
    if (← next?).isNone then return ([], [])
    let content ← line
    let (entries, sections) ← linesUpTo bound
    match content with
    | .blank => return (entries, sections)
    | .entry e => return (e :: entries, sections)
    | .header h => return ([], ⟨h, entries⟩ :: sections)

/-- Reads a whole document. A byte order mark may stand in front of it. -/
def document : Reader Document := do
  let _ ← accept '\ufeff'
  let (entries, sections) ← linesUpTo (← bound)
  Document.ofSections? entries sections

end Reader

/-- The document that characters write, unless they are ill formed. -/
def Document.ofChars? (cs : List Char) : Option Document :=
  (Reader.document.run ⟨0, cs⟩).map (·.1)

/-- The document that a text writes, unless it is ill formed. -/
def Document.ofText? (text : String) : Option Document :=
  ofChars? text.toList

end MigrationLint.Toml
