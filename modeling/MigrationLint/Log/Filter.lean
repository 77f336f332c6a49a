import MigrationLint.Log.Directive

/-!
# Log filters

A filter is a list of directives with commas between them. About an event decides the most specific
directive that speaks about it, the later one of two that speak about the same events. An empty
filter logs errors only.
-/

namespace MigrationLint.Log

/-- Which events are logged. -/
structure Filter where
  /-- The directives, in order. -/
  directives : List Directive
  deriving DecidableEq, Repr

namespace Filter

/-- The filter that logs everything down to a level. -/
def ofLevel (l : Level) : Filter :=
  ⟨[{ level := some l }]⟩

/-- The more specific of two directives, the second one if they are equally specific. -/
def stronger (a : Option Directive) (b : Directive) : Option Directive :=
  match a with
  | some d => if b.isLess d then some d else some b
  | none => some b

/-- The directive that decides about an event. -/
def deciding? (f : Filter) (e : Event) : Option Directive :=
  (f.directives.filter fun d => d.covers e).foldl stronger none

/-- The filter lets an event through. -/
def allows (f : Filter) (e : Event) : Bool :=
  (f.deciding? e).any fun d => d.allows e

/-- Reads a filter. -/
def ofText? (s : String) : Option Filter := do
  let texts := (s.toList.splitOn ',').filter fun p => !p.isEmpty
  let directives ← texts.mapM Directive.ofChars?
  return if directives.isEmpty then ofLevel .error else ⟨directives⟩

/-- The filter that is asked for by a text, or else by a number of requests for verbose output. -/
def choose (text : Option String) (verbosity : Nat) : Filter :=
  (text.bind ofText?).getD (ofLevel (.ofVerbosity verbosity))

end Filter

end MigrationLint.Log
