import Mathlib.Data.String.Basic
import MigrationLint.Proofs.FileTree.Writing
import MigrationLint.Proofs.Path.Normal

/-!
# Spellings of a directory

A walk stays in place at empty segments and at `.`. So paths that differ only in these lead to the same
directory, if they lead to directories at all. This is not so for files: a separator after a file is an
error.

* `FileTree.walk_moves`: where a walk ends depends only on the segments that move it;
* `FileTree.directory?_normal`: the normal form of the path of a directory leads there as well;
* `FileTree.eq_of_directory?_eq_some`: paths with the same components lead to the same directory.
-/

namespace MigrationLint.FileTree

variable {t : FileTree} {p q : Path} {l : Location}

/-- The segments that move a walk. -/
def moves (segments : List String) : List String :=
  segments.filter fun s => s ≠ "" ∧ s ≠ "."

/-- Two walks end in the same directory, or neither of them in a directory. -/
def SameDirectory (x y : Except FileFault Destination) : Prop :=
  ∀ l, x = .ok ⟨l, some .directory, false⟩ ↔ y = .ok ⟨l, some .directory, false⟩

theorem SameDirectory.refl (x : Except FileFault Destination) : SameDirectory x x :=
  fun _ => Iff.rfl

/-- No walk stops in a directory before its end. -/
theorem ofEntry_ne_stop_directory (here : Location) (s : String) (rest : List String)
    (entry : Option FileEntry) :
    Turn.ofEntry here s rest entry ≠ .stop (.ok ⟨l, some .directory, false⟩) := by
  intro hstop
  have hentry : some .directory = entry :=
    congrArg Destination.entry (eq_of_ofEntry_eq_stop hstop).1
  subst hentry
  nomatch hstop

section Walk

variable {follow : Location → List String → Except FileFault Destination}
variable (hfollow : ∀ here segments segments', moves segments = moves segments' →
  SameDirectory (follow here segments) (follow here segments'))

include hfollow

/-- What is left of a path matters for a turn only by the segments that move the walk. -/
theorem proceed_ofEntry {rest rest' : List String} {go go' : Location → Except FileFault Destination}
    (hrest : moves rest = moves rest') (hgo : ∀ there, SameDirectory (go there) (go' there))
    (here : Location) (s : String) (entry : Option FileEntry) :
    SameDirectory ((Turn.ofEntry here s rest entry).proceed follow go)
      ((Turn.ofEntry here s rest' entry).proceed follow go') := by
  -- a walk that stops here does not stop in a directory, whatever is left of the path
  have hstop : ∀ rest go x, Turn.ofEntry here s rest entry = .stop x → ∀ l,
      (Turn.ofEntry here s rest entry).proceed follow go ≠ .ok ⟨l, some .directory, false⟩ := by
    intro rest go x hx l hl
    rw [hx] at hl
    exact ofEntry_ne_stop_directory here s rest entry (hx.trans (congrArg Turn.stop hl))
  cases entry with
  | none => exact fun l => iff_of_false (hstop rest go _ rfl l) (hstop rest' go' _ rfl l)
  | some e =>
    cases e with
    | file | broken | device =>
      exact fun l => iff_of_false (hstop rest go _ rfl l) (hstop rest' go' _ rfl l)
    | directory => exact hgo _
    | link target =>
      have hlink : ∀ rest, Turn.ofEntry here s rest (some (.link target)) =
          if target = "" then .stop (.error .notFound)
          else .follow (start target here) (segmentsOf target ++ rest) := fun _ => rfl
      rw [hlink, hlink]
      by_cases htarget : target = ""
      · rw [if_pos htarget, if_pos htarget]
        exact .refl _
      · rw [if_neg htarget, if_neg htarget]
        refine hfollow _ _ _ ?_
        unfold moves
        rw [List.filter_append, List.filter_append]
        exact congrArg _ hrest

/-- A walk leads to the same directory if the segments that stay in place are left out. -/
theorem walkSegments_moves (t : FileTree) (segments : List String) (here : Location) :
    SameDirectory (t.walkSegments .use follow segments here)
      (t.walkSegments .use follow (moves segments) here) := by
  induction segments generalizing here with
  | nil => exact .refl _
  | cons s rest ih =>
    by_cases hs : s = "" ∨ s = "."
    · -- the walk stays in place
      have hmoves : moves (s :: rest) = moves rest := by
        rcases hs with rfl | rfl <;> rfl
      rw [hmoves, walkSegments, if_pos hs]
      exact ih here
    · have hmoves : moves (s :: rest) = s :: moves rest := by
        rw [moves, List.filter_cons_of_pos (by simpa using hs)]
        rfl
      rw [hmoves, walkSegments_cons, walkSegments_cons, turn, turn, if_neg hs, if_neg hs]
      have hidem : moves rest = moves (moves rest) := by simp [moves]
      have hwrite : ∀ rest, ¬(Purpose.use = .write ∧ isTrailing rest = true) := by simp
      -- both walks take the same turn, and have the same moves left after it
      by_cases hparent : s = ".."
      · rw [if_pos hparent, if_pos hparent]
        exact ih here.dropLast
      rw [if_neg hparent, if_neg hparent, if_neg (hwrite rest), if_neg (hwrite (moves rest))]
      by_cases hlong : maxName < s.utf8ByteSize
      · rw [if_pos hlong, if_pos hlong]
        exact .refl _
      rw [if_neg hlong, if_neg hlong]
      exact proceed_ofEntry hfollow hidem ih here s _

/-- Segments that move alike lead to the same directory. -/
theorem walkSegments_of_moves_eq (t : FileTree) {segments segments' : List String}
    (h : moves segments = moves segments') (here : Location) :
    SameDirectory (t.walkSegments .use follow segments here)
      (t.walkSegments .use follow segments' here) := by
  intro l
  -- both walks end where their moves lead
  rw [walkSegments_moves hfollow t segments here l, h,
    ← walkSegments_moves hfollow t segments' here l]

end Walk

/-- Walks that have the same moves end in the same directory, or neither of them in a directory. -/
theorem walk_of_moves_eq (t : FileTree) (links : Nat) (here : Location)
    (segments segments' : List String) (h : moves segments = moves segments') :
    SameDirectory (t.walk .use links here segments) (t.walk .use links here segments') := by
  -- by induction on the links that may still be followed
  induction links generalizing here segments segments' with
  | zero => exact walkSegments_of_moves_eq (fun _ _ _ _ => .refl _) t h here
  | succ links ih => exact walkSegments_of_moves_eq ih t h here

/-! ## Paths of directories -/

/-- A path leads to a directory iff its walk ends there. -/
theorem directory?_eq_some_iff :
    t.directory? p = some l ↔ t.destination .use p = .ok ⟨l, some .directory, false⟩ := by
  rw [directory?, lookUp]
  cases t.destination .use p with
  | error fault => simp [bind, Except.bind]
  | ok d =>
    obtain ⟨location, entry, separator⟩ := d
    cases entry with
    | none => simp [bind, Except.bind]
    | some e =>
      cases separator with
      | true => simp [bind, Except.bind]
      | false => cases e <;> simp [bind, Except.bind]

/-- The text of a path can be walked. -/
structure Walkable (p : Path) : Prop where
  noNul : '\x00' ∉ p.text.toList
  someText : p.text ≠ ""
  short : p.text.utf8ByteSize < maxPath

/-- A path that can be walked leads to where its walk ends. -/
theorem Walkable.destination_eq (h : Walkable p) (t : FileTree) (purpose : Purpose) :
    t.destination purpose p = t.walk purpose maxLinks (start p.text t.working) (segmentsOf p.text) := by
  have hnul : ¬p.text.toList.contains '\x00' = true := by simpa using h.noNul
  rw [destination, if_neg hnul, if_neg h.someText, if_neg (Nat.not_le.mpr h.short)]

/-- A path that leads somewhere can be walked. -/
theorem walkable_of_destination_eq_ok {purpose : Purpose} {d : Destination}
    (h : t.destination purpose p = .ok d) : Walkable p := by
  rw [destination] at h
  split at h
  · cases h
  split at h
  · cases h
  split at h
  · cases h
  next hnul hempty hlong =>
  exact ⟨by simpa using hnul, hempty, Nat.lt_of_not_le hlong⟩

/-- The normal form of a path that can be walked can be walked. -/
theorem Walkable.normal (h : Walkable p) : Walkable p.normal where
  noNul hmem := h.noNul (p.text_normal_sublist.mem hmem)
  someText := Path.text_normal_ne_empty h.someText
  short := by
    have hsize : ∀ s : String, s.utf8ByteSize = String.utf8Len s.toList := by
      intro s
      rw [← String.utf8ByteSize_ofList, String.ofList_toList]
    -- leaving out characters makes no text longer
    refine Nat.lt_of_le_of_lt ?_ h.short
    rw [hsize, hsize]
    exact String.utf8Len_le_of_sublist p.text_normal_sublist

/-- The segments of a path that move are its steps. -/
theorem moves_segmentsOf (text : String) :
    moves (segmentsOf text) = (Path.steps (Path.segments text.toList)).map String.ofList := by
  have hstep : ((fun s : String => decide (s ≠ "" ∧ s ≠ ".")) ∘ String.ofList) = Path.isStep := by
    funext s
    have hdot : String.ofList s = "." ↔ s = ['.'] := String.ofList_eq
    rw [Bool.eq_iff_iff]
    simp [Path.isStep, hdot]
  rw [moves, segmentsOf, List.filter_map, hstep]
  rfl

/-- The normal form of the path of a directory leads to the same directory. -/
theorem directory?_normal (h : t.directory? p = some l) : t.directory? p.normal = some l := by
  rw [directory?_eq_some_iff] at h ⊢
  have hp := walkable_of_destination_eq_ok h
  have hmoves : moves (segmentsOf p.text) = moves (segmentsOf p.normal.text) := by
    rw [moves_segmentsOf, moves_segmentsOf, Path.steps_segments_normal]
  have hstart : start p.normal.text t.working = start p.text t.working := by
    change (if p.normal.isAbsolute then _ else _) = if p.isAbsolute then _ else _
    rw [Path.isAbsolute_normal]
  rw [hp.destination_eq] at h
  rw [hp.normal.destination_eq, hstart]
  exact (walk_of_moves_eq t maxLinks _ _ _ hmoves l).mp h

/-- Paths with the same components lead to the same directory, if both of them lead to one. -/
theorem eq_of_directory?_eq_some {l' : Location} (hsame : p.components = q.components)
    (hp : t.directory? p = some l) (hq : t.directory? q = some l') : l = l' := by
  have hnormal := directory?_normal hp
  rw [Path.normal_eq_normal_iff.mpr hsame, directory?_normal hq] at hnormal
  exact (Option.some.inj hnormal).symm

end MigrationLint.FileTree
