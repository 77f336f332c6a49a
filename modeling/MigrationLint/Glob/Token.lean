import MigrationLint.Glob.Shape

/-!
# Tokens of glob patterns

A pattern is a sequence of tokens. `?` stands for one byte, `*` for any bytes, separators included.
Two stars next to separators stand for whole directory levels. Braces hold alternatives; an
alternative without content is left out, and a group without alternatives is as if it were not
there.
-/

namespace MigrationLint.Glob

/-- A part of a pattern. -/
inductive Token
  /-- The character itself. -/
  | literal (c : Char)
  /-- Written `?`: any byte. -/
  | anyByte
  /-- Written `*`: any bytes. -/
  | anyBytes
  /-- Written `**` at the start of a pattern or alternative, with the separator after it. -/
  | leadingLevels
  /-- Written `**` at the end of a pattern or alternative, with the separator before it. -/
  | trailingLevels
  /-- Written `**` between separators, with both of them. -/
  | innerLevels
  /-- Written `[…]`: one byte of the members. -/
  | oneOf (negated : Bool) (members : List (Char × Char))
  /-- Written `{…}`: one of the alternatives that have content. -/
  | group (alternatives : List (List Token))
  deriving Repr

/-- The byte ranges of a class member. The bytes of a character that takes more than one count one
by one, and a range joins the last byte of its lower end to the first byte of its upper end. -/
def memberRanges (member : Char × Char) : List (UInt8 × UInt8) :=
  let low := String.utf8EncodeChar member.1
  if member.1 = member.2 then low.map fun b => (b, b)
  else
    let high := String.utf8EncodeChar member.2
    let single := fun (b : UInt8) => (b, b)
    low.dropLast.map single ++ [(low.getLastD 0, high.headD 0)] ++ high.tail.map single

namespace Token

/-- The path separator. -/
def separator : Shape :=
  Shape.ofBytes (Utf8.encode ['/'])

mutual

/-- What a token stands for, if it has content. -/
def shape? : Token → Option Shape
  | literal c => some (Shape.ofBytes (Utf8.encode [c]))
  | anyByte => some (.byte .all)
  | anyBytes => some .anything
  | leadingLevels => some (.alt .nothing (.alt separator (.seq .anything separator)))
  | trailingLevels => some (.seq separator .anything)
  | innerLevels => some (.alt separator (.seq separator (.seq .anything separator)))
  | oneOf negated members => some (.byte ⟨negated, members.flatMap memberRanges⟩)
  | group alternatives =>
    match alternativeShapes alternatives with
    | [] => none
    | f :: fs => some (Shape.altAll f fs)

/-- What the tokens of a sequence stand for, one by one, without those that have no content. -/
def shapes : List Token → List Shape
  | [] => []
  | t :: ts => t.shape?.toList ++ shapes ts

/-- What alternatives stand for, one by one, without those that have no content. -/
def alternativeShapes : List (List Token) → List Shape
  | [] => []
  | ts :: alternatives =>
    match shapes ts with
    | [] => alternativeShapes alternatives
    | fs => Shape.seqAll fs :: alternativeShapes alternatives

end

end Token

end MigrationLint.Glob
