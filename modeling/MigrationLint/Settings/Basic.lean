/-!
# Settings

What a check looks for and where. Every setting has a default.
-/

namespace MigrationLint

/-- The settings of a check. -/
structure Settings where
  /-- The name of the rollback method. -/
  method : String := "down"
  /-- The suffix of the entries of a directory that are migrations. -/
  suffix : String := ".php"
  /-- Patterns for the paths of entries that are left out. -/
  exclude : List String := []
  /-- Files may be checked at the same time. -/
  parallel : Bool := true
  /-- A report with failures ends in an example of a rollback method that passes. -/
  showExample : Bool := true
  deriving DecidableEq, Repr

namespace Settings

/-- One of the settings. -/
inductive Field
  | method
  | suffix
  | exclude
  | parallel
  | showExample
  deriving DecidableEq, Repr

/-- The settings in the order in which they are listed. -/
def Field.all : List Field :=
  [.method, .suffix, .exclude, .parallel, .showExample]

/-- The name of a setting in documents. -/
def Field.name : Field → String
  | method => "method"
  | suffix => "suffix"
  | exclude => "exclude"
  | parallel => "parallel"
  | showExample => "show_example"

/-- The setting with a given name. -/
def Field.ofName? (name : String) : Option Field :=
  all.find? fun f => f.name == name

/-- The name of the section of a document that holds the settings. -/
def sectionName : String :=
  "check"

end Settings

end MigrationLint
