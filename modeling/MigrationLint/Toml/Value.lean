/-!
# Values of settings documents

A TOML document is a table of values. Each key and each value carries the span of text that it
comes from, so that a fault can be shown in place.
-/

namespace MigrationLint.Toml

/-- A stretch of a text, in characters from its start. -/
structure Span where
  /-- The position of the first character. -/
  first : Nat
  /-- The position after the last character. -/
  last : Nat
  deriving DecidableEq, Repr, Inhabited

/-- Something that was read, and where. -/
structure Spanned (α : Type) where
  /-- Where it was read. -/
  span : Span
  /-- What was read. -/
  value : α
  deriving DecidableEq, Repr

/-- A key, without the quotes that it may be written in. -/
abbrev Key := Spanned String

/-- How a table came about. This decides in which ways later lines may add to it. -/
inductive Form
  /-- By a header of its own, or as the document. -/
  | explicit
  /-- As a value between braces. -/
  | inline
  /-- As a step in the header of another table. -/
  | impliedByHeader
  /-- As a step in a dotted key. -/
  | impliedByKey
  deriving DecidableEq, Repr

/-- A table with values of type `ν`. -/
structure Table (ν : Type) where
  /-- How the table came about. -/
  form : Form
  /-- The entries, in the order of their keys. -/
  entries : List (Key × Spanned ν)

/-- The written form of a floating-point number. -/
inductive FloatLiteral
  /-- Infinity, perhaps with a sign. -/
  | infinity (negative : Bool)
  /-- Not a number. -/
  | nan
  /-- The number `coefficient * 10 ^ exponent`, perhaps with a minus sign. -/
  | decimal (negative : Bool) (coefficient : Nat) (exponent : Int)
  deriving DecidableEq, Repr

/-- A value. -/
inductive Value
  /-- Text. -/
  | string (text : String)
  /-- An integer of any size, or the form of one without a value. -/
  | integer (value : Option Int)
  /-- A floating-point number. -/
  | float (literal : FloatLiteral)
  /-- A truth value. -/
  | boolean (value : Bool)
  /-- A date, a time or both. -/
  | dateTime
  /-- A list of values. It consists of tables with a header of their own if `ofTables` holds. -/
  | array (ofTables : Bool) (items : List (Spanned Value))
  /-- A table. -/
  | table (table : Table Value)

/-- A whole document. -/
abbrev Document := Table Value

end MigrationLint.Toml
