import MigrationLint.Proofs.FileTree.Kinds

/-!
# File trees that differ in what files hold

Where a path leads does not depend on what files hold. So a path that leads to none of the files that
may differ leads to the same thing in both trees, and writing a file fails in both of them or in none.

* `FileTree.AlikeBut`: trees that differ only in what the files at some locations hold;
* `FileTree.AlikeBut.lookUp_cases`: what a path leads to in such trees.
-/

namespace MigrationLint.FileTree

open Utf8 (Bytes)

/-- Two trees differ only in what the files at some locations hold. -/
structure AlikeBut (places : Location → Prop) (t u : FileTree) : Prop where
  /-- Relative paths start from the same directory. -/
  working : t.working = u.working
  /-- The same directories cannot be listed, for the same reasons. -/
  closed : t.closed = u.closed
  /-- At these locations, both trees have a file. -/
  files : ∀ l, places l → ∃ content content',
    t.entry? l = some (.file content) ∧ u.entry? l = some (.file content')
  /-- At all others, both trees have the same. -/
  others : ∀ l, ¬places l → t.entry? l = u.entry? l

variable {places : Location → Prop} {t u : FileTree} {purpose : Purpose} {p : Path}

theorem AlikeBut.refl (t : FileTree) : AlikeBut (fun _ => False) t t where
  working := rfl
  closed := rfl
  files _ h := h.elim
  others _ _ := rfl

/-- Files are regular files. -/
theorem AlikeBut.sameKinds (h : AlikeBut places t u) : t.SameKinds u where
  working := h.working
  closed := h.closed
  entries l := by
    by_cases hplace : places l
    · obtain ⟨content, content', ht, hu⟩ := h.files l hplace
      exact .inr ⟨_, _, ht, hu, .file, .file⟩
    · exact .inl (h.others l hplace)

/-- At a location, both trees have the same or files that may differ. -/
theorem AlikeBut.eq_or_files (h : AlikeBut places t u) {l : Location} {e e' : FileEntry}
    (ht : t.entry? l = some e) (hu : u.entry? l = some e') :
    e = e' ∨ places l ∧ ∃ content content', e = .file content ∧ e' = .file content' := by
  by_cases hplace : places l
  · obtain ⟨content, content', hfile, hfile'⟩ := h.files l hplace
    exact .inr ⟨hplace, content, content', Option.some.inj (ht.symm.trans hfile),
      Option.some.inj (hu.symm.trans hfile')⟩
  · exact .inl (Option.some.inj (ht.symm.trans ((h.others l hplace).trans hu)))

/-- What a path leads to is the same in both trees, or one of the files that may differ. -/
theorem AlikeBut.lookUp_cases (h : AlikeBut places t u) (p : Path) :
    t.lookUp p = u.lookUp p ∨ ∃ l content content', places l ∧ t.LeadsTo p l ∧
      t.lookUp p = .ok (l, .file content) ∧ u.lookUp p = .ok (l, .file content') := by
  obtain hsame | ⟨l, e, e', hl, hl', -, -, hleads, ht, hu⟩ := h.sameKinds.lookUp_cases p
  · exact .inl hsame
  · obtain rfl | ⟨hplace, content, content', rfl, rfl⟩ := h.eq_or_files hl hl'
    · exact .inl (ht.trans hu.symm)
    · exact .inr ⟨l, content, content', hplace, hleads, ht, hu⟩

theorem AlikeBut.lookUp (h : AlikeBut places t u) (hp : ∀ l, t.LeadsTo p l → ¬places l) :
    t.lookUp p = u.lookUp p := by
  obtain hsame | ⟨l, content, content', hplace, hleads, -, -⟩ := h.lookUp_cases p
  · exact hsame
  · exact absurd hplace (hp l hleads)

/-- Whatever is written, writing to a path fails alike in both trees, or in none. -/
theorem AlikeBut.write (h : AlikeBut places t u) (p : Path) (content content' : Bytes) :
    (∃ fault, t.write p content = .error fault ∧ u.write p content' = .error fault) ∨
      ∃ t' u', t.write p content = .ok t' ∧ u.write p content' = .ok u' := by
  have hend := h.sameKinds.destination .write p
  rw [FileTree.write, FileTree.write]
  generalize t.destination .write p = x at hend ⊢
  generalize u.destination .write p = y at hend ⊢
  cases hend with
  | regular ht hu he =>
    obtain rfl | ⟨-, _, _, rfl, rfl⟩ := h.eq_or_files ht hu
    · cases he with
      | file => exact .inr ⟨_, _, rfl, rfl⟩
      | broken => exact .inl ⟨_, rfl, rfl⟩
    · exact .inr ⟨_, _, rfl, rfl⟩
  | same =>
    cases x with
    | error fault => exact .inl ⟨fault, rfl, rfl⟩
    | ok d =>
      obtain ⟨l, entry, separator⟩ := d
      cases entry with
      | none => exact .inr ⟨_, _, rfl, rfl⟩
      | some e =>
        cases e with
        | file | device => exact .inr ⟨_, _, rfl, rfl⟩
        | broken | directory | link => exact .inl ⟨_, rfl, rfl⟩

end MigrationLint.FileTree
