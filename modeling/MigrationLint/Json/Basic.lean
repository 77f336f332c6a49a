/-!
# JSON values

The members of an object are kept in order, so that a value determines how it is written.
-/

namespace MigrationLint

/-- A JSON value. -/
inductive Json
  | null
  | boolean (value : Bool)
  | number (value : Int)
  | string (value : String)
  | list (items : List Json)
  | object (members : List (String × Json))

namespace Json

/-- A list of strings. -/
def strings (ss : List String) : Json :=
  list (ss.map string)

/-- The first member of an object with a given name. -/
def member? (name : String) : Json → Option Json
  | object members => (members.find? fun m => m.1 == name).map (·.2)
  | _ => none

end Json

end MigrationLint
