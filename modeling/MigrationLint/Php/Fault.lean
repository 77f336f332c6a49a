import MigrationLint.Php.Cst
import MigrationLint.Text.Blank
import MigrationLint.Text.Utf8
import MigrationLint.Tree.ParseError

/-!
# Syntax errors of PHP

The fault of a concrete syntax tree is its first error or missing node in preorder. The message
quotes the first word of what could not be parsed, at most `maxQuoted` characters of it.
-/

namespace MigrationLint.Php

mutual

/-- The first error or missing node of a tree, in preorder. Trees without errors are not
searched. -/
def Cst.firstFault? : Cst → Option Label
  | ⟨label, children⟩ =>
    if label.isError || label.isMissing then some label
    else if label.hasError then firstFaultIn? children
    else none

/-- The first error or missing node of a forest, in preorder. -/
def Cst.firstFaultIn? : List Cst → Option Label
  | [] => none
  | c :: cs =>
    match c.firstFault? with
    | some label => some label
    | none => firstFaultIn? cs

end

/-- Why a text is not PHP. -/
inductive Fault
  /-- The grammar gives no tree at all. -/
  | noTree
  /-- The tree says that it has an error but holds none. -/
  | unlocated
  /-- A token is missing. -/
  | missing (kind : String) (place : Position)
  /-- A word does not belong where it stands. -/
  | unexpected (word : String) (place : Position)
  /-- The text ends too early. -/
  | unexpectedEnd (place : Position)
  deriving DecidableEq, Repr

/-- The most characters of a word that a message quotes. -/
def maxQuoted : Nat := 32

namespace Fault

/-- The fault that an error or missing node of a text stands for. -/
def ofLabel (source : List Char) (label : Label) : Fault :=
  let place : Position := ⟨label.row + 1, label.column + 1⟩
  if label.isMissing then .missing label.kind place
  else
    let covered := (Utf8.slice? source label.first label.last).getD []
    match (Text.firstWord covered).take maxQuoted with
    | [] => .unexpectedEnd place
    | word => .unexpected (String.ofList word) place

/-- The fault as an error for the reader of a report. -/
def toParseError : Fault → ParseError
  | noTree => ⟨"Parser produced no syntax tree", none⟩
  | unlocated => ⟨"Syntax error", none⟩
  | missing kind place => ⟨"Syntax error, missing `" ++ kind ++ "`", some place⟩
  | unexpected word place => ⟨"Syntax error, unexpected `" ++ word ++ "`", some place⟩
  | unexpectedEnd place => ⟨"Syntax error, unexpected end of file", some place⟩

end Fault

end MigrationLint.Php
