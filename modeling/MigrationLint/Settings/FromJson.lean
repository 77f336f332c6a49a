import MigrationLint.Json.Reader
import MigrationLint.Settings.Basic

/-!
# Settings from JSON

A JSON value with the layout of a settings document holds settings. It has no other member than a
section of settings, and the section has no other members than settings, each at most once and of the
right type. What is missing is a default. A list may stand for either of the two objects: its items
are the members in order, and the last ones may be missing.
-/

namespace MigrationLint

namespace Json

/-- The text that a value is. -/
def asText? : Json → Option String
  | string text => some text
  | _ => none

/-- The truth value that a value is. -/
def asTruth? : Json → Option Bool
  | boolean value => some value
  | _ => none

/-- The texts that a value lists. -/
def asTexts? : Json → Option (List String)
  | list items => items.mapM asText?
  | _ => none

theorem asTexts?_strings (ss : List String) : (strings ss).asTexts? = some ss := by
  have hpure : asText? ∘ string = fun text => pure (id text) := rfl
  rw [strings, asTexts?, List.mapM_map, hpure, List.mapM_pure, List.map_id]
  rfl

end Json

namespace Settings

/-- The settings with one of them taken from a value. -/
def setJson? (s : Settings) (field : Field) (j : Json) : Option Settings :=
  match field with
  | .method => j.asText?.map fun x => { s with method := x }
  | .suffix => j.asText?.map fun x => { s with suffix := x }
  | .exclude => j.asTexts?.map fun x => { s with exclude := x }
  | .parallel => j.asTruth?.map fun x => { s with parallel := x }
  | .showExample => j.asTruth?.map fun x => { s with showExample := x }

/-- The settings with one of them taken from a member of a section. -/
def setMember? (s : Settings) (m : String × Json) : Option Settings :=
  (Field.ofName? m.1).bind fun field => s.setJson? field m.2

/-- The settings that a section holds. -/
def ofJsonSection? : Json → Option Settings
  | .object members =>
    if (members.map Prod.fst).Nodup then members.foldlM setMember? {} else none
  | .list items =>
    if items.length ≤ Field.all.length then
      (Field.all.zip items).foldlM (fun s e => s.setJson? e.1 e.2) {}
    else none
  | _ => none

/-- The settings that a value holds. -/
def ofJson? : Json → Option Settings
  | .object [] | .list [] => some {}
  | .object [(name, j)] => if name = sectionName then ofJsonSection? j else none
  | .list [j] => ofJsonSection? j
  | _ => none

/-- The settings that a text holds. -/
def ofJsonText? (text : String) : Option Settings :=
  (Json.parse text).bind ofJson?

end Settings

end MigrationLint
