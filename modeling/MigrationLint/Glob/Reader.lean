import MigrationLint.Glob.Token

/-!
# Reading glob patterns

`Glob.parse` reads a pattern from left to right and stops at the first fault. A group that is still
open is noticed at the end only.
-/

namespace MigrationLint.Glob

/-- Why a text is not a pattern. -/
inductive Fault
  /-- A class has no closing bracket. -/
  | unclosedClass
  /-- The lower end of a range is above its upper end. -/
  | invalidRange (low high : Char)
  /-- A closing brace has no opening one. -/
  | unopenedGroup
  /-- An opening brace has no closing one. -/
  | unclosedGroup
  /-- A backslash ends the pattern. -/
  | danglingEscape
  deriving DecidableEq, Repr

/-- The wording of a fault. -/
def Fault.message : Fault → String
  | unclosedClass => "unclosed character class; missing ']'"
  | invalidRange low high =>
    "invalid range; '" ++ low.toString ++ "' > '" ++ high.toString ++ "'"
  | unopenedGroup =>
    "unopened alternate group; missing '\x7b' (maybe escape '\x7d' with '[\x7d]'?)"
  | unclosedGroup =>
    "unclosed alternate group; missing '\x7d' (maybe escape '\x7b' with '[\x7b]'?)"
  | danglingEscape => "dangling '\\'"

/-- A group that has been opened. -/
structure OpenGroup where
  /-- The branch that the group stands in, last token first. -/
  around : List Token
  /-- The finished alternatives of the group, last one first. -/
  alternatives : List (List Token)

/-- What has been read of a pattern. -/
structure Draft where
  /-- The branch being read, last token first. -/
  branch : List Token
  /-- The groups that are open, innermost first. -/
  groups : List OpenGroup
  /-- The last character read. -/
  last : Option Char

namespace Draft

/-- Nothing has been read. -/
def start : Draft :=
  ⟨[], [], none⟩

/-- Adds a token that ends in the character `c`. -/
def push (d : Draft) (t : Token) (c : Char) : Draft :=
  { d with branch := t :: d.branch, last := some c }

/-- Opens a group. -/
def openGroup (d : Draft) : Draft :=
  ⟨[], ⟨d.branch, []⟩ :: d.groups, some '{'⟩

/-- A comma ends an alternative of the innermost open group; outside groups it is a literal. -/
def comma (d : Draft) : Draft :=
  match d.groups with
  | [] => d.push (.literal ',') ','
  | g :: gs =>
    ⟨[], { g with alternatives := d.branch.reverse :: g.alternatives } :: gs, some ','⟩

/-- Closes the innermost open group. -/
def closeGroup (d : Draft) : Except Fault Draft :=
  match d.groups with
  | [] => .error .unopenedGroup
  | g :: gs =>
    .ok ⟨.group (d.branch.reverse :: g.alternatives).reverse :: g.around, gs, some '}'⟩

/-- The last token taken together with two stars after it. Tokens that already stand for whole
levels at an end of the pattern stay as they are. -/
def absorb (levels : Token) : Token → Token
  | .leadingLevels => .leadingLevels
  | .trailingLevels => .trailingLevels
  | _ => levels

/-- Adds two stars, given what follows them. They stand for whole levels at the start of a branch
before a separator or the end, and after a separator before another or before the end of the
branch; otherwise they are two single stars. -/
def doubleStar (d : Draft) (cs : List Char) : Draft × List Char :=
  let plain := ((d.push .anyBytes '*').push .anyBytes '*', cs)
  let inGroup := !d.groups.isEmpty
  match d.branch with
  | [] =>
    match cs with
    | [] => (d.push .leadingLevels '*', cs)
    | '/' :: rest => (d.push .leadingLevels '/', rest)
    | _ => plain
  | t :: ts =>
    if d.last = some '/' ∨ (inGroup ∧ (d.last = some ',' ∨ d.last = some '{')) then
      match cs with
      | [] => ({ d with branch := absorb .trailingLevels t :: ts, last := some '*' }, cs)
      | c :: rest =>
        if c = '/' then
          ({ d with branch := absorb .innerLevels t :: ts, last := some '/' }, rest)
        else if inGroup ∧ (c = ',' ∨ c = '}') then
          ({ d with branch := absorb .trailingLevels t :: ts, last := some '*' }, cs)
        else plain
    else plain

theorem doubleStar_length (d : Draft) (cs : List Char) :
    (d.doubleStar cs).2.length ≤ cs.length := by
  unfold doubleStar
  dsimp only
  repeat' split
  all_goals simp

end Draft

/-- Reads the members of a class up to its closing bracket, which counts as a member when it stands
first, as a hyphen does first or last. The members read so far come last one first. -/
def readMembers (first inRange : Bool) (members : List (Char × Char)) :
    List Char → Except Fault (List (Char × Char) × List Char)
  | [] => .error .unclosedClass
  | c :: cs =>
    if c = ']' ∧ ¬first then
      .ok ((if inRange then ('-', '-') :: members else members).reverse, cs)
    else if c = '-' ∧ ¬first ∧ ¬inRange then readMembers false true members cs
    else
      match inRange, members with
      | true, (low, _) :: rest =>
        if c < low then .error (.invalidRange low c)
        else readMembers false false ((low, c) :: rest) cs
      | _, _ => readMembers false false ((c, c) :: members) cs

theorem readMembers_length {first inRange : Bool} {members ms : List (Char × Char)}
    {cs rest : List Char} (h : readMembers first inRange members cs = .ok (ms, rest)) :
    rest.length < cs.length := by
  induction cs generalizing first inRange members with
  | nil => simp [readMembers] at h
  | cons c cs ih =>
    unfold readMembers at h
    split at h
    · simp only [Except.ok.injEq, Prod.mk.injEq] at h
      simp [← h.2]
    · split at h
      · have := ih h; simp only [List.length_cons]; omega
      · split at h
        · split at h
          · simp at h
          · have := ih h; simp only [List.length_cons]; omega
        · have := ih h; simp only [List.length_cons]; omega

/-- Reads a class after its opening bracket. -/
def readClass (cs : List Char) : Except Fault (Token × List Char) :=
  match cs with
  | '!' :: rest | '^' :: rest =>
    (readMembers true false [] rest).map fun (ms, rest) => (.oneOf true ms, rest)
  | _ => (readMembers true false [] cs).map fun (ms, rest) => (.oneOf false ms, rest)

theorem readClass_length {t : Token} {cs rest : List Char}
    (h : readClass cs = .ok (t, rest)) : rest.length < cs.length := by
  unfold readClass at h
  split at h
  all_goals
    simp only [Except.map] at h
    split at h
    · simp at h
    · next p hp =>
      simp only [Except.ok.injEq, Prod.mk.injEq] at h
      have := @readMembers_length true false [] p.1 _ p.2 hp
      simp only [← h.2, List.length_cons] at *
      omega

/-- Reads the rest of a pattern. -/
def read (d : Draft) : List Char → Except Fault Draft
  | [] => .ok d
  | '?' :: cs => read (d.push .anyByte '?') cs
  | '*' :: '*' :: cs => read (d.doubleStar cs).1 (d.doubleStar cs).2
  | '*' :: cs => read (d.push .anyBytes '*') cs
  | '[' :: cs =>
    match _h : readClass cs with
    | .error e => .error e
    | .ok (t, rest) => read (d.push t ']') rest
  | '{' :: cs => read d.openGroup cs
  | '}' :: cs =>
    match d.closeGroup with
    | .error e => .error e
    | .ok d => read d cs
  | ',' :: cs => read d.comma cs
  | ['\\'] => .error .danglingEscape
  | '\\' :: c :: cs => read (d.push (.literal c) c) cs
  | c :: cs => read (d.push (.literal c) c) cs
termination_by cs => cs.length
decreasing_by
  all_goals simp only [List.length_cons]
  · omega
  · have := d.doubleStar_length cs
    omega
  all_goals first
    | omega
    | exact Nat.lt_succ_of_lt (readClass_length _h)

end Glob

/-- A pattern for paths. -/
structure Glob where
  /-- The pattern as it is written. -/
  text : String
  /-- What it is made up of. -/
  tokens : List Glob.Token

namespace Glob

/-- What the pattern stands for. Two stars alone match everything. -/
def shape (g : Glob) : Shape :=
  match g.tokens with
  | [.leadingLevels] => .anything
  | ts => Shape.seqAll (Token.shapes ts)

/-- Reads a pattern. -/
def parse (text : String) : Except Fault Glob :=
  match read .start text.toList with
  | .error e => .error e
  | .ok d =>
    if d.groups.isEmpty then .ok ⟨text, d.branch.reverse⟩ else .error .unclosedGroup

/-- Whether the pattern matches the whole of a text. -/
def accepts (g : Glob) (text : String) : Bool :=
  g.shape.accepts (Utf8.encode text.toList)

end Glob

end MigrationLint
