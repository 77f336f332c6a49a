import MigrationLint.Settings.Validity
import MigrationLint.Toml.Description
import MigrationLint.Toml.Reader

/-!
# Settings from documents

A document holds settings if it has no other entry than a section of settings, the section has no
other entries than settings, and each of them has the right type. Entries are taken in the order of
their keys and the first one at fault is reported. An array may stand for the section: its values
are the settings in the order of `Field.all`, and values beyond these do not matter.
-/

namespace MigrationLint.Settings

open Toml

/-- The type that a value should have. -/
inductive Wanted
  | text
  | truth
  | list
  | settings
  deriving DecidableEq, Repr

/-- How a type is called. -/
def Wanted.phrase : Wanted → String
  | text => "a string"
  | truth => "a boolean"
  | list => "a sequence"
  | settings => "struct CheckConfig"

/-- Why a document does not hold settings. -/
inductive DecodeFault
  /-- A key is not one of those that may stand here. -/
  | unknownKey (name : String) (known : List String)
  /-- A value has the wrong type. -/
  | wrongType (found : String) (wanted : Wanted)
  /-- A number cannot be held. -/
  | numberTooLarge
  deriving DecidableEq, Repr

namespace DecodeFault

/-- The alternatives in words. -/
def alternatives (names : List String) : String :=
  let names := names.map fun n => "`" ++ n ++ "`"
  match names with
  | [name] => name
  | _ => "one of " ++ String.intercalate ", " names

/-- The wording of a fault. -/
def message : DecodeFault → String
  | unknownKey name known =>
    "unknown field `" ++ name ++ "`, expected " ++ alternatives known
  | wrongType found wanted => "invalid type: " ++ found ++ ", expected " ++ wanted.phrase
  | numberTooLarge => "number overflowed"

/-- The fault of a value that has another type than the wanted one. -/
def ofValue (v : Value) (wanted : Wanted) : DecodeFault :=
  match v.describe? with
  | some found => wrongType found wanted
  | none => numberTooLarge

end DecodeFault

/-- Decoding a part of a document. -/
abbrev Decoded :=
  Except (Spanned DecodeFault)

/-- Fails because a value has the wrong type. -/
def mistyped {α : Type} (v : Spanned Value) (wanted : Wanted) : Decoded α :=
  .error ⟨v.span, .ofValue v.value wanted⟩

/-- The text that a value holds. -/
def decodeText (v : Spanned Value) : Decoded String :=
  match v.value with
  | .string text => .ok text
  | _ => mistyped v .text

/-- The truth value that a value holds. -/
def decodeTruth (v : Spanned Value) : Decoded Bool :=
  match v.value with
  | .boolean b => .ok b
  | _ => mistyped v .truth

/-- The texts that a value holds. -/
def decodeTexts (v : Spanned Value) : Decoded (List String) :=
  match v.value with
  | .array _ items => items.mapM decodeText
  | _ => mistyped v .list

/-- The settings with one of them taken from a value. -/
def set (s : Settings) (field : Field) (v : Spanned Value) : Decoded Settings :=
  match field with
  | .method => (decodeText v).map fun x => { s with method := x }
  | .suffix => (decodeText v).map fun x => { s with suffix := x }
  | .exclude => (decodeTexts v).map fun x => { s with exclude := x }
  | .parallel => (decodeTruth v).map fun x => { s with parallel := x }
  | .showExample => (decodeTruth v).map fun x => { s with showExample := x }

/-- Fails because a key is unknown. -/
def unknown {α : Type} (span : Span) (name : String) (known : List String) : Decoded α :=
  .error ⟨span, .unknownKey name known⟩

/-- The settings with one of them taken from an entry of a section. -/
def setEntry (s : Settings) (entry : Key × Spanned Value) : Decoded Settings :=
  match Field.ofName? entry.1.value with
  | some field => s.set field entry.2
  | none => unknown entry.1.span entry.1.value (Field.all.map Field.name)

/-- The only key of a date or time where a table is wanted. -/
def dateTimeKey : String :=
  "$__toml_private_datetime"

/-- The settings that a section holds. -/
def ofSection (v : Spanned Value) : Decoded Settings :=
  match v.value with
  | .table t => t.entries.foldlM setEntry {}
  | .array _ items => (Field.all.zip items).foldlM (fun s e => s.set e.1 e.2) {}
  | .dateTime => unknown v.span dateTimeKey (Field.all.map Field.name)
  | _ => mistyped v .settings

/-- The settings that an entry of a document holds. -/
def ofEntry (entry : Key × Spanned Value) : Decoded Settings :=
  if entry.1.value = sectionName then ofSection entry.2
  else unknown entry.1.span entry.1.value [sectionName]

/-- The settings that a document holds. -/
def ofDocument (d : Document) : Decoded Settings :=
  d.entries.foldlM (fun _ entry => ofEntry entry) {}

/-- The complaint about a text that is no document. -/
def malformed : Complaint :=
  ⟨none, "malformed document"⟩

/-- The complaint about a document that holds no settings. -/
def complaint (text : String) (fault : Spanned DecodeFault) : Complaint :=
  ⟨some (.ofSpan text fault.span), fault.value.message⟩

/-- Reads usable settings from a text. -/
def parse (text : String) : Except Failure Settings := do
  match Document.ofText? text with
  | none => .error (.document malformed)
  | some d =>
    match ofDocument d with
    | .error fault => .error (.document (complaint text fault))
    | .ok s =>
      s.validate
      return s

end MigrationLint.Settings
