import MigrationLint.Outline

/-!
# Concrete syntax trees of PHP

A concrete syntax tree covers every token of a text. Its nodes carry the names that the grammar
gives them. Where the text is not valid PHP the tree has error nodes, which cover what could not be
parsed, and missing nodes, which stand for a token that should have been there.
-/

namespace MigrationLint.Php

/-- What a concrete node says about itself. -/
structure Label where
  /-- The name of the grammar rule or token. -/
  kind : String
  /-- The node is more than a fixed token. -/
  named : Bool
  /-- The node covers text that could not be parsed. -/
  isError : Bool
  /-- The node stands for a token that is not there. -/
  isMissing : Bool
  /-- The node, or one below it, is an error or missing. -/
  hasError : Bool
  /-- The role of the node in its parent. -/
  field : Option String
  /-- The byte offset where the node starts. -/
  first : Nat
  /-- The byte offset where the node ends. -/
  last : Nat
  /-- The row where the node starts, counted from zero. -/
  row : Nat
  /-- The column where the node starts, in bytes, counted from zero. -/
  column : Nat
  deriving DecidableEq, Repr

/-- A concrete syntax tree. -/
structure Cst where
  /-- What the root says about itself. -/
  label : Label
  /-- The trees below the root, in source order. -/
  children : List Cst

/-- The concrete syntax tree that the PHP grammar gives to a text. -/
abbrev Grammar :=
  String → Option Cst

namespace Cst

/-- The tree that an outline lists. -/
def ofOutline? (rows : List (Nat × Label)) : Option Cst :=
  (Outline.forest Cst.mk rows).head?

/-- The first tree with a given role. -/
def withField? (field : String) (cs : List Cst) : Option Cst :=
  cs.find? fun c => c.label.field == some field

/-- The root of a tree for a text of a given length that has no error. -/
def rootLabel (length : Nat) : Label :=
  ⟨"program", true, false, false, false, none, 0, length, 0, 0⟩

/-- The label of a stretch of plain text that starts a file. -/
def textLabel (length : Nat) : Label :=
  ⟨"text", true, false, false, false, none, 0, length, 0, 0⟩

/-- The tree of a text that holds no PHP: nothing but plain text. -/
def ofPlainText (source : String) : Cst :=
  ⟨rootLabel source.utf8ByteSize, [⟨textLabel source.utf8ByteSize, []⟩]⟩

end Cst

/-- The text switches to PHP somewhere. -/
def hasOpeningTag : List Char → Bool
  | '<' :: '?' :: _ => true
  | _ :: cs => hasOpeningTag cs
  | [] => false

/-- A grammar that also knows texts that hold no PHP. -/
def Grammar.withPlainText (grammar : Grammar) : Grammar := fun source =>
  match grammar source with
  | some c => some c
  | none => if hasOpeningTag source.toList then none else some (.ofPlainText source)

end MigrationLint.Php
