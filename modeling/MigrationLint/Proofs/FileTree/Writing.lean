import MigrationLint.FileTree.Access
import MigrationLint.Proofs.FileTree.Walk

/-!
# What writing a file changes

A file is written where its path leads. It takes the place of the file that is there, or is new, and
nothing else changes. A device swallows what is written to it.

* `FileTree.LeadsTo`: the location that a path leads to;
* `FileTree.exists_destination_of_write`: the places where a file can be written;
* `FileTree.Written`: the tree after a content has been written to a path;
* `FileTree.written_of_write_eq_ok`: a file that can be written is written in this way.
-/

namespace MigrationLint.FileTree

open Utf8 (Bytes)

variable {t u : FileTree} {purpose : Purpose} {p : Path} {content : Bytes} {l other : Location}

/-! ## Entries -/

@[simp]
theorem entry?_root (t : FileTree) : t.entry? [] = some .directory := rfl

/-- What has been put at a location is there, -/
theorem entry?_set_self (t : FileTree) (e : FileEntry) (hl : l ≠ []) :
    FileTree.entry? (t.set l e) l = some e := by
  have hold : (t.entries.filter fun x => x.1 != l).find? (fun x => x.1 == l) = none := by
    rw [List.find?_eq_none]
    intro x hx
    simpa using (List.mem_filter.mp hx).2
  have hempty : l.isEmpty = false := by simpa using hl
  simp [set, entry?, hempty, List.find?_append, hold]

/-- and everything else is what it was. -/
theorem entry?_set_of_ne (t : FileTree) (e : FileEntry) (hne : other ≠ l) :
    FileTree.entry? (t.set l e) other = t.entry? other := by
  have hlast : (l == other) = false := beq_false_of_ne hne.symm
  have hold : (t.entries.filter fun x => x.1 != l).find? (fun x => x.1 == other) =
      t.entries.find? fun x => x.1 == other := by
    rw [List.find?_filter]
    congr
    funext x
    -- what is left out is not at the other location
    by_cases hx : x.1 = other
    · simp [hx, hne]
    · simp [hx]
  simp [set, entry?, List.find?_append, hold, hlast]

/-! ## Files -/

/-- The location that a path leads to. There may be nothing yet. -/
def LeadsTo (t : FileTree) (p : Path) (l : Location) : Prop :=
  ∃ d, t.destination .use p = .ok d ∧ d.location = l

/-- A path leads to one location. -/
theorem LeadsTo.unique (h : t.LeadsTo p l) (hother : t.LeadsTo p other) : l = other := by
  obtain ⟨d, hd, rfl⟩ := h
  obtain ⟨d', hd', rfl⟩ := hother
  obtain rfl : d = d' := Except.ok.inj (hd.symm.trans hd')
  rfl

/-- A tree after a content has been written to a path. -/
inductive Written (t : FileTree) (p : Path) (content : Bytes) : FileTree → Prop
  /-- The path leads to a file or to nothing. The file that is there afterwards has the content, and
  everything else is as before. -/
  | file {l : Location} {u : FileTree} (hleads : t.LeadsTo p l)
      (hbefore : t.entry? l = none ∧ t.exists? p = false ∨
        ∃ old, t.entry? l = some (.file old) ∧ t.exists? p = true)
      (hafter : u.entry? l = some (.file content))
      (hothers : ∀ other, other ≠ l → u.entry? other = t.entry? other)
      (hworking : u.working = t.working) : Written t p content u
  /-- The path leads to a device. -/
  | device {l : Location} (hleads : t.LeadsTo p l) (hdevice : t.entry? l = some .device) :
    Written t p content t

/-- Something exists where a path leads to if an entry is there. -/
theorem exists?_of_destination {d : Destination} (h : t.destination .use p = .ok d)
    (hseparator : d.separator = false) : t.exists? p = d.entry.isSome := by
  rw [exists?, lookUp, h]
  cases hentry : d.entry with
  | none => simp [bind, Except.bind, hentry, Except.toOption]
  | some e => simp [bind, Except.bind, hentry, hseparator, Except.toOption]

/-- There is a file or nothing, but no directory and no link. -/
def Replaceable (entry : Option FileEntry) : Prop :=
  entry = none ∨ ∃ old, entry = some (.file old)

/-- A directory is not replaced. -/
theorem Replaceable.ne_directory {entry : Option FileEntry} (h : Replaceable entry) :
    entry ≠ some .directory := by
  rintro rfl
  rcases h with hnone | ⟨old, hold⟩
  · cases hnone
  · cases hold

/-- A file can be written where there is a file or nothing, or where there is a device. -/
theorem exists_destination_of_write (h : t.write p content = .ok u) :
    ∃ d, t.destination .write p = .ok d ∧
      (Replaceable d.entry ∧ u = t.set d.location (.file content) ∨
        d.entry = some .device ∧ u = t) := by
  rw [write] at h
  cases hd : t.destination .write p with
  | error fault =>
    rw [hd] at h
    cases h
  | ok d =>
    refine ⟨d, rfl, ?_⟩
    simp only [hd, bind, Except.bind] at h
    split at h
    · next hnone => exact .inl ⟨.inl hnone, (Except.ok.inj h).symm⟩
    · next old hold => exact .inl ⟨.inr ⟨old, hold⟩, (Except.ok.inj h).symm⟩
    · next hdevice => exact .inr ⟨hdevice, (Except.ok.inj h).symm⟩
    · next e hfile hdevice hentry =>
      -- what is left cannot be written
      cases e with
      | file old => exact absurd rfl (hfile old)
      | device => exact absurd rfl hdevice
      | broken fault => cases h
      | directory => cases h
      | link target => cases h

/-- What a path leads to is the entry at its location, if it can be replaced. -/
theorem Replaceable.entry?_eq {d : Destination} (h : Replaceable d.entry)
    (hd : t.destination purpose p = .ok d) : t.entry? d.location = d.entry :=
  entry?_of_destination hd h.ne_directory

/-- The root is neither missing nor a file. -/
theorem Replaceable.ne_root {d : Destination} (h : Replaceable d.entry)
    (hd : t.destination purpose p = .ok d) : d.location ≠ [] := by
  intro hroot
  have hentry := h.entry?_eq hd
  rw [hroot, entry?_root] at hentry
  exact h.ne_directory hentry.symm

/-- An entry that takes the place of a file, or of nothing, is a file with the new content. -/
theorem written_set {d : Destination} (h : t.destination .write p = .ok d)
    (hfile : Replaceable d.entry) :
    t.Written p content (t.set d.location (.file content)) := by
  obtain ⟨huse, hseparator⟩ := destination_use_of_write h
  have hexists := exists?_of_destination huse hseparator
  have hentry := hfile.entry?_eq h
  have hroot := hfile.ne_root h
  refine .file ⟨d, huse, rfl⟩ ?_ (entry?_set_self t _ hroot) (fun _ => entry?_set_of_ne t _) rfl
  obtain hnone | ⟨old, hold⟩ := hfile
  · exact .inl ⟨by rw [hentry, hnone], by rw [hexists, hnone]; rfl⟩
  · exact .inr ⟨old, by rw [hentry, hold], by rw [hexists, hold]; rfl⟩

/-- What is written to a path becomes the content of the file that the path leads to. -/
theorem written_of_write_eq_ok (h : t.write p content = .ok u) : t.Written p content u := by
  obtain ⟨d, hd, ⟨hfile, rfl⟩ | ⟨hdevice, rfl⟩⟩ := exists_destination_of_write h
  · exact written_set hd hfile
  · have hentry : u.entry? d.location = d.entry := entry?_of_destination hd (by simp [hdevice])
    exact .device ⟨d, (destination_use_of_write hd).1, rfl⟩ (hentry.trans hdevice)

/-- Directories stay. -/
theorem Written.entry?_directory (h : t.Written p content u) (hl : t.entry? l = some .directory) :
    u.entry? l = some .directory := by
  cases h with
  | device => exact hl
  | @file place _ hleads hbefore hafter hothers _ =>
    by_cases hplace : l = place
    · -- what is written over is no directory
      subst hplace
      obtain ⟨hnone, -⟩ | ⟨old, hold, -⟩ := hbefore
      · cases hnone.symm.trans hl
      · cases hold.symm.trans hl
    · exact (hothers l hplace).trans hl

/-- Writing a file does not move the working directory. -/
theorem Written.working_eq (h : t.Written p content u) : u.working = t.working := by
  cases h with
  | device => rfl
  | file _ _ _ _ hworking => exact hworking

end MigrationLint.FileTree
