import MigrationLint.Toml.Value

/-!
# Excerpts

An excerpt shows the line of a text that a span starts on, with a mark under the span. The mark is
as wide as the span has bytes, but does not reach beyond the line, and is never empty.
-/

namespace MigrationLint.Toml

/-- A line of a text with a mark under a part of it. -/
structure Excerpt where
  /-- The number of the line, counted from one. -/
  line : Nat
  /-- The number of characters before the mark. -/
  indent : Nat
  /-- The width of the mark. -/
  width : Nat
  /-- The line without its end. -/
  content : String
  deriving DecidableEq, Repr

namespace Excerpt

/-- The number of bytes that characters take. -/
def byteLength (cs : List Char) : Nat :=
  (String.ofList cs).utf8ByteSize

/-- The excerpt that shows a span of a text. -/
def ofSpan (text : String) (span : Span) : Excerpt :=
  let cs := text.toList
  let before := cs.take span.first
  let lead := (before.reverse.takeWhile (· ≠ '\n')).reverse
  let content := lead ++ (cs.drop span.first).takeWhile (· ≠ '\n')
  let marked := byteLength ((cs.take span.last).drop span.first)
  { line := before.count '\n' + 1
    indent := lead.length
    width := max 1 (min marked (byteLength content - lead.length))
    content := String.ofList content }

/-- A text repeated. -/
def repeated (n : Nat) (c : Char) : String :=
  String.ofList (List.replicate n c)

/-- The excerpt on four lines. -/
def render (e : Excerpt) : String :=
  let number := toString e.line
  let margin := repeated (number.length + 1) ' ' ++ "|"
  "TOML parse error at line " ++ number ++ ", column " ++ toString (e.indent + 1) ++ "\n" ++
    margin ++ "\n" ++
    number ++ " | " ++ e.content ++ "\n" ++
    margin ++ repeated (e.indent + 1) ' ' ++ repeated e.width '^' ++ "\n"

end Excerpt

/-- What is wrong with a document. -/
structure Complaint where
  /-- The document at the place in question, if there is one. -/
  excerpt : Option Excerpt
  /-- What is wrong. -/
  message : String
  deriving DecidableEq, Repr

/-- The complaint with its excerpt. It ends in a line feed. -/
def Complaint.text (c : Complaint) : String :=
  ((c.excerpt.map Excerpt.render).getD "") ++ c.message ++ "\n"

end MigrationLint.Toml
