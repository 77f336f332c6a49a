import MigrationLint.Toml.Value

/-!
# Putting tables together

Entries and headers name a place in a table by a path of keys. Tables on the way that do not exist
yet are made, and remember that they were only implied. A key is given a value at most once, values
between braces are complete, and dotted keys do not reach into tables that have a header.
-/

namespace MigrationLint.Toml

/-- The place of a value: the keys of the tables on the way, and its own key. -/
structure KeyPath where
  /-- The keys of the tables on the way, outermost first. -/
  steps : List Key
  /-- The key of the value itself. -/
  last : Key

/-- A key with its value. -/
structure Entry where
  /-- The key, as a path from the table that the entry stands in. -/
  path : KeyPath
  /-- The value. -/
  value : Spanned Value

/-- The header of a table. -/
structure Header where
  /-- The place of the table. -/
  path : KeyPath
  /-- Where the header stands, with its brackets. -/
  span : Span
  /-- The header starts the next table of an array. -/
  ofArray : Bool

/-- A header with the entries below it. -/
structure Section where
  /-- The header. -/
  header : Header
  /-- The entries, in order. -/
  entries : List Entry

/-- The table came about as a step of a path. -/
def Form.isImplied (f : Form) : Bool :=
  f = .impliedByHeader || f = .impliedByKey

namespace Table

variable {ν : Type}

/-- The value of a key. -/
def get? (t : Table ν) (key : String) : Option (Spanned ν) :=
  (t.entries.find? fun e => e.1.value == key).map (·.2)

/-- The entries without those of a key. -/
def without (key : String) (entries : List (Key × Spanned ν)) : List (Key × Spanned ν) :=
  entries.filter fun e => e.1.value != key

/-- Puts an entry before the first one with a greater key. -/
def insertEntry (key : Key) (value : Spanned ν) : List (Key × Spanned ν) → List (Key × Spanned ν)
  | [] => [(key, value)]
  | e :: es =>
    if e.1.value < key.value then e :: insertEntry key value es else (key, value) :: e :: es

/-- Gives a key a value, in place of the one it may have. -/
def put (t : Table ν) (key : Key) (value : Spanned ν) : Table ν :=
  { t with entries := insertEntry key value (without key.value t.entries) }

/-- Gives a key a new value where its old one was read. -/
def update (t : Table ν) (key : String) (value : ν) : Table ν :=
  { t with entries := t.entries.map fun e =>
      if e.1.value = key then (e.1, ⟨e.2.span, value⟩) else e }

/-- Changes the last value of a list, if the change succeeds. -/
def updateLast? (f : ν → Option ν) : List (Spanned ν) → Option (List (Spanned ν))
  | [] => none
  | [x] => (f x.value).map fun v => [⟨x.span, v⟩]
  | x :: y :: xs => (updateLast? f (y :: xs)).map (x :: ·)

/-- Changes the table at the end of a path. A step into an array of tables leads to its last one.
Missing tables get the form `implied`. A dotted key does not reach into tables with a header of
their own. -/
def descend? (implied : Form) (f : Table Value → Option (Table Value)) :
    List Key → Table Value → Option (Table Value)
  | [], t => f t
  | key :: keys, t =>
    match t.get? key.value with
    | none => do
      let u ← descend? implied f keys ⟨implied, []⟩
      return t.put key ⟨key.span, .table u⟩
    | some ⟨_, .table u⟩ =>
      if u.form = .inline ∨ (implied = .impliedByKey ∧ ¬u.form.isImplied) then none
      else do
        let u ← descend? implied f keys u
        return t.update key.value (.table u)
    | some ⟨_, .array true items⟩ => do
      let into := fun
        | .table u => (descend? implied f keys u).map Value.table
        | _ => none
      let items ← updateLast? into items
      return t.update key.value (.array true items)
    | some _ => none

/-- Adds an entry. Its key must be new, and a dotted key must end in a table that dotted keys
made. -/
def add? (t : Table Value) (e : Entry) : Option (Table Value) :=
  t.descend? .impliedByKey (fun u =>
    if e.path.steps.isEmpty = decide (u.form = .impliedByKey) then none
    else
      match u.get? e.path.last.value with
      | none => some (u.put e.path.last e.value)
      | some _ => none) e.path.steps

/-- Adds entries in order. -/
def addAll? (t : Table Value) (es : List Entry) : Option (Table Value) :=
  es.foldlM add? t

/-- Adds a table with a header. Only a table that headers below it implied may be there already. -/
def addTable? (s : Section) (parent : Table Value) : Option (Table Value) := do
  let key := s.header.path.last
  let known ←
    match parent.get? key.value with
    | none => some []
    | some ⟨_, .table t⟩ => if t.form = .impliedByHeader then some t.entries else none
    | some _ => none
  let t ← addAll? ⟨.explicit, known⟩ s.entries
  return parent.put key ⟨s.header.span, .table t⟩

/-- Adds a table to the end of an array of tables. -/
def addToArray? (s : Section) (parent : Table Value) : Option (Table Value) := do
  let key := s.header.path.last
  let t ← addAll? ⟨.explicit, []⟩ s.entries
  let item : Spanned Value := ⟨s.header.span, .table t⟩
  match parent.get? key.value with
  | none => return parent.put key ⟨s.header.span, .array true [item]⟩
  | some ⟨_, .array true items⟩ => return parent.update key.value (.array true (items ++ [item]))
  | some _ => none

/-- Adds a header with the entries below it. -/
def addSection? (t : Table Value) (s : Section) : Option (Table Value) :=
  t.descend? .impliedByHeader (if s.header.ofArray then addToArray? s else addTable? s)
    s.header.path.steps

end Table

/-- The document with the given entries, followed by the given sections. -/
def Document.ofSections? (entries : List Entry) (sections : List Section) : Option Document := do
  let t ← Table.addAll? ⟨.explicit, []⟩ entries
  sections.foldlM Table.addSection? t

end MigrationLint.Toml
