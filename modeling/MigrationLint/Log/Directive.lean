import MigrationLint.Log.Event
import MigrationLint.Log.ValuePattern
import MigrationLint.Text.Alphanumeric
import MigrationLint.Text.Blank
import MigrationLint.Text.Utf8

/-!
# Log directives

A directive says down to which level events are logged, and which events it speaks about. It is
written as `target[span{field=value}]=level`, where each part may be missing, or as a level alone.
No event happens inside a span, and values are compared for spans only, so a directive that asks for
either speaks about no event.
-/

namespace MigrationLint.Log

open Utf8 (Bytes)

/-- A field that is asked for, perhaps with a pattern for its value. -/
structure Condition where
  /-- The name of the field. -/
  field : String
  /-- A value is asked for. -/
  hasValue : Bool
  deriving DecidableEq, Repr

/-- What is logged of some events. -/
structure Directive where
  /-- The start of the targets of the events. Without one, all targets are meant. -/
  target : Option String := none
  /-- The name of the span that the events are in. -/
  span : Option String := none
  /-- What the events have. -/
  condition : Option Condition := none
  /-- The level down to which events are logged, or nothing is. -/
  level : Option Level := some .trace
  deriving DecidableEq, Repr

namespace Directive

/-- The directive can speak about events. -/
def isForEvents (d : Directive) : Bool :=
  d.span.isNone && d.condition.all fun c => !c.hasValue

/-- The name of the field that the events must have. -/
def field (d : Directive) : Option String :=
  d.condition.map Condition.field

/-- The directive speaks about an event. Each event has its message as a field too. -/
def covers (d : Directive) (e : Event) : Bool :=
  d.isForEvents && (d.target.all fun start => start.toList.isPrefixOf e.target.toList) &&
    d.field.all fun name => name = "message" || e.fields.any fun f => f.1 = name

/-- How specific a directive is about targets. -/
def weight (d : Directive) : Nat :=
  d.target.elim 0 fun start => start.utf8ByteSize + 1

/-- The field of one directive counts for less than the one of another: it is missing, or its name
comes first. -/
def fieldIsLess (a b : Directive) : Bool :=
  match a.field, b.field with
  | _, none => false
  | none, some _ => true
  | some x, some y => x < y

/-- A directive is less specific than another. Targets count before fields. -/
def isLess (a b : Directive) : Bool :=
  a.weight < b.weight || (a.weight = b.weight && a.fieldIsLess b)

/-- The directive lets an event through that it speaks about. -/
def allows (d : Directive) (e : Event) : Bool :=
  d.level.any fun l => e.level.rank ≤ l.rank

/-! ## Reading directives -/

/-- The level that a name or a number from zero to five stands for; the inner option is empty for
no level at all. -/
def level? (s : String) : Option (Option Level) :=
  match Text.natural? s.toList with
  | some 0 => some none
  | some n => (Level.all.find? fun l => l.rank = n).map some
  | none =>
    if Text.lowered s = "off" then some none
    else (Level.all.find? fun l => l.name == Text.lowered s).map some

/-- Reads a condition. What follows a second equals sign does not count. -/
def condition? (s : String) : Option Condition :=
  match s.toList.splitOn '=' with
  | name :: value :: _ =>
    if ValuePattern.isWellFormed value then some ⟨String.ofList name, true⟩ else none
  | _ => some ⟨s, false⟩

/-- The character may start a target or a level. -/
def isStart (c : Char) : Bool :=
  c = '-' || c = ':' || c = '_' || Text.isAlphanumeric c

/-- The part that a character of a directive belongs to, and the position of its first byte. -/
inductive Part
  /-- The start of the directive. -/
  | start
  /-- The target, or a level alone. -/
  | target
  /-- The span. -/
  | span (first : Nat)
  /-- The condition. -/
  | condition (first : Nat)
  /-- What closes the brackets, after a condition. -/
  | closing
  /-- What follows the brackets. -/
  | after
  /-- The level. -/
  | level (first : Nat)

/-- The text between two positions. -/
def slice? (text : Bytes) (first last : Nat) : Option String :=
  (Utf8.decode? ((text.take last).drop first)).map String.ofList

/-- The directive and the part after one more character at a given position. -/
def step? (text : Bytes) (d : Directive) (position : Nat) (p : Part) (c : Char) :
    Option (Directive × Part) :=
  match p with
  | .start =>
    if c = '[' then some (d, .span (position + 1))
    else if isStart c then some (d, .target)
    else none
  | .target =>
    let withTarget := fun part =>
      (slice? text 0 position).map fun s => ({ d with target := some s }, part)
    if c = '=' then withTarget (.level (position + 1))
    else if c = '[' then withTarget (.span (position + 1))
    else some (d, .target)
  | .span first =>
    if c = ']' then (slice? text first position).map fun s => ({ d with span := some s }, .after)
    else if c = '{' then
      (slice? text first position).map fun s =>
        ({ d with span := if s = "" then none else some s }, .condition (position + 1))
    else some (d, .span first)
  | .condition first =>
    if c = '}' then do
      let s ← slice? text first position
      if s = "" then none
      else
        let condition ← condition? s
        return ({ d with condition := some condition }, .closing)
    else some (d, .condition first)
  | .closing => if c = ']' then some (d, .after) else none
  | .after => if c = '=' then some (d, .level (position + 1)) else none
  | .level first => some (d, .level first)

/-- The directive at the end of its text. Without a level it asks for everything. -/
def finish? (text : Bytes) (d : Directive) : Part → Option Directive
  | .target => do
    let s ← slice? text 0 text.length
    match level? s with
    | some level => return { d with level }
    | none => return { d with target := some s }
  | .level first => do
    let s ← slice? text first text.length
    if s = "" then return d
    else return { d with level := ← level? s }
  | .after => some d
  | _ => none

/-- Reads the characters from a position on. -/
def readFrom? (text : Bytes) (d : Directive) (position : Nat) (p : Part) :
    List Char → Option Directive
  | [] => finish? text d p
  | c :: cs =>
    (step? text d position p c).bind fun (d, p) =>
      readFrom? text d (position + c.utf8Size) p cs

/-- The characters without the blanks around them. -/
def trimmed (cs : List Char) : List Char :=
  ((cs.dropWhile Text.isBlank).reverse.dropWhile Text.isBlank).reverse

/-- Reads a directive. Its parts are told apart without the blanks around it, but their positions
are counted in the text with the blanks. -/
def ofChars? (cs : List Char) : Option Directive :=
  readFrom? (Utf8.encode cs) {} 0 .start (trimmed cs)

end Directive

end MigrationLint.Log
