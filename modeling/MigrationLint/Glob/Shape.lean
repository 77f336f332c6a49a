import MigrationLint.Text.Utf8

/-!
# Shapes of byte sequences

A shape describes a set of byte sequences: `Matches` says which. `Shape.accepts` decides it in time
proportional to the size of the shape and the length of the sequence. It works from the end of a
sequence to its start: for each suffix it notes whether what follows accepts that suffix, and each
part of a shape turns one such row of answers into another.
-/

namespace MigrationLint.Glob

open Utf8 (Bytes)

/-- A set of bytes: those in one of the closed ranges, or those in none of them. -/
structure ByteSet where
  /-- The set holds the bytes outside the ranges. -/
  negated : Bool
  /-- Closed ranges of bytes. -/
  ranges : List (UInt8 × UInt8)
  deriving DecidableEq, Repr

namespace ByteSet

/-- The byte belongs to the set. -/
def contains (set : ByteSet) (b : UInt8) : Bool :=
  (set.ranges.any fun r => r.1 ≤ b && b ≤ r.2) != set.negated

/-- The set with one byte. -/
def single (b : UInt8) : ByteSet :=
  ⟨false, [(b, b)]⟩

/-- The set of all bytes. -/
def all : ByteSet :=
  ⟨true, []⟩

end ByteSet

/-- A description of byte sequences. -/
inductive Shape
  /-- The empty sequence. -/
  | nothing
  /-- One byte of a set. -/
  | byte (set : ByteSet)
  /-- Any sequence. -/
  | anything
  /-- One shape after another. -/
  | seq (first second : Shape)
  /-- One of two shapes. -/
  | alt (first second : Shape)
  deriving DecidableEq, Repr

/-- The sequence has the shape. -/
inductive Matches : Shape → Bytes → Prop
  | nothing : Matches .nothing []
  | byte {set : ByteSet} {b : UInt8} : set.contains b = true → Matches (.byte set) [b]
  | anything (s : Bytes) : Matches .anything s
  | seq {f g : Shape} {s t : Bytes} : Matches f s → Matches g t → Matches (.seq f g) (s ++ t)
  | first {f g : Shape} {s : Bytes} : Matches f s → Matches (.alt f g) s
  | second {f g : Shape} {s : Bytes} : Matches g s → Matches (.alt f g) s

namespace Shape

/-- The row for one byte of a set, given the row for what follows. -/
def byteRow (set : ByteSet) : Bytes → List Bool → List Bool
  | b :: s, _ :: row => (set.contains b && row.headD false) :: byteRow set s row
  | _, _ => [false]

/-- The row for any sequence, given the row for what follows: some later suffix is accepted. -/
def anythingRow : List Bool → List Bool
  | [] => []
  | b :: row =>
    let later := anythingRow row
    (b || later.headD false) :: later

/-- The row for a shape, given the row for what follows. Rows hold one answer for each suffix of
the sequence, the whole sequence first. -/
def row : Shape → Bytes → List Bool → List Bool
  | nothing, _, after => after
  | byte set, s, after => byteRow set s after
  | anything, _, after => anythingRow after
  | seq f g, s, after => f.row s (g.row s after)
  | alt f g, s, after => List.zipWith (· || ·) (f.row s after) (g.row s after)

/-- Whether the sequence has the shape. -/
def accepts (f : Shape) (s : Bytes) : Bool :=
  (f.row s (List.replicate s.length false ++ [true])).headD false

/-- The shape of exactly these bytes. -/
def ofBytes : Bytes → Shape
  | [] => nothing
  | [b] => byte (.single b)
  | b :: bs => seq (byte (.single b)) (ofBytes bs)

/-- One shape after another, for all shapes of a list. -/
def seqAll : List Shape → Shape
  | [] => nothing
  | [f] => f
  | f :: fs => seq f (seqAll fs)

/-- One of the shapes of a list that is not empty. -/
def altAll (f : Shape) : List Shape → Shape
  | [] => f
  | g :: gs => alt f (altAll g gs)

end Shape

end MigrationLint.Glob
