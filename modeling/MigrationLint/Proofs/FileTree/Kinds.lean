import MigrationLint.Proofs.FileTree.Writing

/-!
# File trees with the same kinds of files

Where a path leads does not depend on what regular files hold, or on whether they can be read. So
trees that differ only in that have the same paths, the same kinds of files and the same names in
their directories, and what can be read differs only at files that differ themselves.

* `FileTree.SameKinds`: trees that differ only in what regular files hold;
* `FileTree.SameKinds.lookUp_cases`: what a path leads to in such trees.
-/

namespace MigrationLint

/-- An entry is a regular file, whether or not it can be read. -/
inductive FileEntry.Regular : FileEntry → Prop
  | file {content : Utf8.Bytes} : Regular (.file content)
  | broken {fault : FileFault} : Regular (.broken fault)

namespace FileTree

variable {t u : FileTree} {purpose : Purpose} {p : Path} {l : Location}

/-- Two trees differ only in what regular files hold. -/
structure SameKinds (t u : FileTree) : Prop where
  /-- Relative paths start from the same directory. -/
  working : t.working = u.working
  /-- The same directories cannot be listed, for the same reasons. -/
  closed : t.closed = u.closed
  /-- At every location, both trees have the same, or regular files. -/
  entries : ∀ l, t.entry? l = u.entry? l ∨
    ∃ e e', t.entry? l = some e ∧ u.entry? l = some e' ∧ e.Regular ∧ e'.Regular

/-- Two walks fail alike, lead to the same, or lead to regular files at the same location. -/
inductive SameEnd (t u : FileTree) :
    Except FileFault Destination → Except FileFault Destination → Prop
  | same {x : Except FileFault Destination} : SameEnd t u x x
  | regular {l : Location} {e e' : FileEntry} {separator : Bool} (ht : t.entry? l = some e)
      (hu : u.entry? l = some e') (he : e.Regular) (he' : e'.Regular) :
    SameEnd t u (.ok ⟨l, some e, separator⟩) (.ok ⟨l, some e', separator⟩)

/-- No walk goes on behind a regular file. -/
theorem Turn.ofEntry_of_regular (here : Location) (s : String) (rest : List String) {e : FileEntry}
    (he : e.Regular) :
    Turn.ofEntry here s rest (some e) =
      .stop (if rest.isEmpty ∨ isTrailing rest then .ok ⟨here ++ [s], some e, !rest.isEmpty⟩
        else .error .notADirectory) := by
  cases he with
  | file => rfl
  | broken => rfl

/-- At each segment, walks in both trees turn the same way. -/
theorem SameKinds.turn (h : t.SameKinds u) (purpose : Purpose) (here : Location) (s : String)
    (rest : List String) :
    (t.turn purpose here s rest).Matches (SameEnd t u) (u.turn purpose here s rest) := by
  obtain hsame | ⟨e, e', ht, hu, he, he'⟩ := h.entries (here ++ [s])
  · have hturn : t.turn purpose here s rest = u.turn purpose here s rest := by
      rw [FileTree.turn, FileTree.turn, hsame]
    rw [hturn]
    exact .refl fun x _ => .same
  · refine turn_matches (fun _ => .same) ?_
    rw [ht, hu, Turn.ofEntry_of_regular here s rest he, Turn.ofEntry_of_regular here s rest he']
    refine .stop ?_
    split
    · exact .regular ht hu he he'
    · exact .same

/-- A path leads to the same location in both trees. -/
theorem SameKinds.destination (h : t.SameKinds u) (purpose : Purpose) (p : Path) :
    SameEnd t u (t.destination purpose p) (u.destination purpose p) :=
  destination_related (fun _ => .same) (h.turn purpose) (fun _ => .same) h.working p

/-- What a path leads to is the same in both trees, or a regular file at the same location. -/
theorem SameKinds.lookUp_cases (h : t.SameKinds u) (p : Path) :
    t.lookUp p = u.lookUp p ∨
      ∃ l e e', t.entry? l = some e ∧ u.entry? l = some e' ∧ e.Regular ∧ e'.Regular ∧
        t.LeadsTo p l ∧ t.lookUp p = .ok (l, e) ∧ u.lookUp p = .ok (l, e') := by
  have hend := h.destination .use p
  rw [lookUp, lookUp]
  generalize hx : t.destination .use p = x at hend ⊢
  generalize u.destination .use p = y at hend ⊢
  cases hend with
  | same => exact .inl rfl
  | @regular l e e' separator ht hu he he' =>
    -- no file is found behind a separator, whatever it holds
    cases separator with
    | true => exact .inl rfl
    | false => exact .inr ⟨l, e, e', ht, hu, he, he', ⟨_, hx, rfl⟩, rfl, rfl⟩

/-- The same paths exist in both trees, -/
theorem SameKinds.exists? (h : t.SameKinds u) (p : Path) : t.exists? p = u.exists? p := by
  unfold FileTree.exists?
  obtain hsame | ⟨l, e, e', -, -, -, -, -, ht, hu⟩ := h.lookUp_cases p
  · rw [hsame]
  · rw [ht, hu]
    rfl

/-- the same ones lead to regular files, -/
theorem SameKinds.isRegularFile (h : t.SameKinds u) (p : Path) :
    t.isRegularFile p = u.isRegularFile p := by
  unfold FileTree.isRegularFile
  obtain hsame | ⟨l, e, e', -, -, he, he', -, ht, hu⟩ := h.lookUp_cases p
  · rw [hsame]
  · rw [ht, hu]
    cases he <;> cases he' <;> rfl

/-- and the same ones lead to directories. -/
theorem SameKinds.directory? (h : t.SameKinds u) (p : Path) :
    t.directory? p = u.directory? p := by
  unfold FileTree.directory?
  obtain hsame | ⟨l, e, e', -, -, he, he', -, ht, hu⟩ := h.lookUp_cases p
  · rw [hsame]
  · rw [ht, hu]
    cases he <;> cases he' <;> rfl

/-- A tree in which a regular file takes the place of another one differs only in what they hold. -/
theorem sameKinds_set {e e' : FileEntry} (hl : l ≠ []) (ht : t.entry? l = some e) (he : e.Regular)
    (he' : e'.Regular) : t.SameKinds (t.set l e') where
  working := rfl
  closed := rfl
  entries other := by
    by_cases hother : other = l
    · subst hother
      exact .inr ⟨e, e', ht, entry?_set_self t e' hl, he, he'⟩
    · exact .inl (entry?_set_of_ne t e' hother).symm

end FileTree

end MigrationLint
