import MigrationLint.Glob.Reader

/-!
# Deciding shapes

`Shape.accepts` does not try ways to split a sequence but computes rows of answers, one answer for each
suffix of the sequence. A row is right for a property of sequences if its answers say which suffixes
have the property. Each shape turns a row that is right for what follows into one that is right for the
shape with that behind it.

* `Row`: a row that is right for a property;
* `Before`: a sequence starts with a shape, and what is behind it has a property;
* `Shape.row_before`: what a shape does to a row;
* `Shape.accepts_iff`: the sequences that are accepted are those that have the shape;
* `accepts_iff`: the same for the texts that a pattern matches.
-/

namespace MigrationLint.Glob

open Utf8 (Bytes)

/-- The answers of a row say which suffixes of a sequence have a property. -/
inductive Row (P : Bytes → Prop) : Bytes → List Bool → Prop
  | nil {answer : Bool} (h : answer = true ↔ P []) : Row P [] [answer]
  | cons {answer : Bool} {b : UInt8} {s : Bytes} {row : List Bool} (h : answer = true ↔ P (b :: s))
      (hrow : Row P s row) : Row P (b :: s) (answer :: row)

namespace Row

variable {P Q : Bytes → Prop} {s : Bytes} {row : List Bool}

/-- The first answer is the one for the whole sequence. -/
theorem headD (h : Row P s row) : row.headD false = true ↔ P s := by
  cases h with
  | nil hanswer => exact hanswer
  | cons hanswer _ => exact hanswer

/-- A row is right for all properties that say the same. -/
theorem congr (h : Row P s row) (hiff : ∀ u, P u ↔ Q u) : Row Q s row := by
  induction h with
  | nil hanswer => exact .nil (hanswer.trans (hiff _))
  | cons hanswer _ ih => exact .cons (hanswer.trans (hiff _)) ih

/-- The row that nothing follows. -/
theorem last (s : Bytes) : Row (· = []) s (List.replicate s.length false ++ [true]) := by
  induction s with
  | nil => exact .nil (iff_of_true rfl rfl)
  | cons b s ih => exact .cons (iff_of_false Bool.false_ne_true (List.cons_ne_nil b s)) ih

/-- Two rows together are right for both properties. -/
theorem zipWith_or {row' : List Bool} (h : Row P s row) (h' : Row Q s row') :
    Row (fun u => P u ∨ Q u) s (List.zipWith (· || ·) row row') := by
  induction h generalizing row' with
  | nil hanswer =>
    cases h' with
    | nil hanswer' => exact .nil (by rw [Bool.or_eq_true, hanswer, hanswer'])
  | cons hanswer _ ih =>
    cases h' with
    | cons hanswer' hrow' =>
      exact .cons (by rw [Bool.or_eq_true, hanswer, hanswer']) (ih hrow')

end Row

/-- The sequence starts with a shape, and what is behind it has a property. -/
def Before (f : Shape) (P : Bytes → Prop) (u : Bytes) : Prop :=
  ∃ s t, Matches f s ∧ P t ∧ u = s ++ t

section Before

variable {P : Bytes → Prop} {f g : Shape} {set : ByteSet} {b : UInt8} {s u : Bytes}

theorem before_nothing : Before .nothing P u ↔ P u := by
  constructor
  · rintro ⟨s, t, hmatches, ht, rfl⟩
    cases hmatches
    exact ht
  · exact fun hu => ⟨[], u, .nothing, hu, rfl⟩

theorem not_before_byte_nil : ¬Before (.byte set) P [] := by
  rintro ⟨s, t, hmatches, -, hempty⟩
  cases hmatches
  cases hempty

theorem before_byte_cons : Before (.byte set) P (b :: s) ↔ set.contains b = true ∧ P s := by
  constructor
  · rintro ⟨_, t, hmatches, ht, hcons⟩
    cases hmatches with
    | byte hb =>
      obtain ⟨rfl, rfl⟩ := List.cons.inj hcons
      exact ⟨hb, ht⟩
  · rintro ⟨hb, hs⟩
    exact ⟨[b], s, .byte hb, hs, rfl⟩

theorem before_anything_nil : Before .anything P [] ↔ P [] := by
  constructor
  · rintro ⟨s, t, -, ht, hempty⟩
    obtain ⟨-, rfl⟩ := List.append_eq_nil_iff.mp hempty.symm
    exact ht
  · exact fun h => ⟨[], [], .anything [], h, rfl⟩

/-- Any sequence may be empty, or take one more byte. -/
theorem before_anything_cons :
    Before .anything P (b :: s) ↔ P (b :: s) ∨ Before .anything P s := by
  constructor
  · rintro ⟨front, t, -, ht, hcons⟩
    cases front with
    | nil =>
      rw [List.nil_append] at hcons
      exact .inl (hcons ▸ ht)
    | cons _ front => exact .inr ⟨front, t, .anything front, ht, (List.cons.inj hcons).2⟩
  · rintro (h | ⟨front, t, -, ht, rfl⟩)
    · exact ⟨[], b :: s, .anything [], h, rfl⟩
    · exact ⟨b :: front, t, .anything _, ht, rfl⟩

/-- The second shape of a sequence is part of what is behind the first one. -/
theorem before_seq : Before (.seq f g) P u ↔ Before f (Before g P) u := by
  constructor
  · rintro ⟨_, t, hmatches, ht, rfl⟩
    cases hmatches with
    | seq hf hg => exact ⟨_, _, hf, ⟨_, t, hg, ht, rfl⟩, List.append_assoc ..⟩
  · rintro ⟨s, _, hf, ⟨s', t, hg, ht, rfl⟩, rfl⟩
    exact ⟨s ++ s', t, .seq hf hg, ht, (List.append_assoc ..).symm⟩

/-- A choice starts with either shape. -/
theorem before_alt : Before (.alt f g) P u ↔ Before f P u ∨ Before g P u := by
  constructor
  · rintro ⟨s, t, hmatches, ht, hu⟩
    cases hmatches with
    | first hf => exact .inl ⟨s, t, hf, ht, hu⟩
    | second hg => exact .inr ⟨s, t, hg, ht, hu⟩
  · rintro (⟨s, t, hf, ht, hu⟩ | ⟨s, t, hg, ht, hu⟩)
    · exact ⟨s, t, .first hf, ht, hu⟩
    · exact ⟨s, t, .second hg, ht, hu⟩

end Before

namespace Shape

variable {P : Bytes → Prop} {s : Bytes} {after : List Bool}

/-- The answer for a suffix is that of the next one, if the byte between them is in the set. -/
theorem byteRow_before (set : ByteSet) (h : Row P s after) :
    Row (Before (.byte set) P) s (byteRow set s after) := by
  induction h with
  | nil _ => exact .nil (iff_of_false Bool.false_ne_true not_before_byte_nil)
  | cons _ hrow ih =>
    -- what follows the byte starts one place further on
    refine .cons ?_ ih
    rw [Bool.and_eq_true, hrow.headD, before_byte_cons]

/-- The answer for a suffix is that of any later one. -/
theorem anythingRow_before (h : Row P s after) :
    Row (Before .anything P) s (anythingRow after) := by
  induction h with
  | nil hanswer =>
    refine .nil ?_
    rw [before_anything_nil, ← hanswer]
    simp [anythingRow]
  | cons hanswer _ ih =>
    refine .cons ?_ ih
    rw [Bool.or_eq_true, hanswer, ih.headD, before_anything_cons]

/-- A shape turns a row for what follows into one for the shape with that behind it. -/
theorem row_before (f : Shape) (h : Row P s after) : Row (Before f P) s (f.row s after) := by
  induction f generalizing P after with
  | nothing => exact h.congr fun _ => before_nothing.symm
  | byte set => exact byteRow_before set h
  | anything => exact anythingRow_before h
  | seq f g ihf ihg => exact (ihf (ihg h)).congr fun _ => before_seq.symm
  | alt f g ihf ihg => exact ((ihf h).zipWith_or (ihg h)).congr fun _ => before_alt.symm

/-- The sequences that are accepted are those that have the shape. -/
theorem accepts_iff {f : Shape} {s : Bytes} : f.accepts s = true ↔ Matches f s := by
  rw [accepts, (f.row_before (Row.last s)).headD]
  constructor
  · rintro ⟨s, _, hmatches, rfl, rfl⟩
    rwa [List.append_nil]
  · exact fun hmatches => ⟨s, [], hmatches, rfl, (List.append_nil s).symm⟩

end Shape

/-- A pattern matches the texts whose bytes have its shape. -/
theorem accepts_iff {g : Glob} {text : String} :
    g.accepts text = true ↔ Matches g.shape (Utf8.encode text.toList) :=
  Shape.accepts_iff

end MigrationLint.Glob
