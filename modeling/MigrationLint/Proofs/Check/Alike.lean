import MigrationLint.Proofs.Check.Pool
import MigrationLint.Proofs.Check.Resolution
import MigrationLint.Proofs.FileTree.Alike

/-!
# Runs on file trees that differ in what files hold

What inputs stand for does not depend on what files hold, and a run looks into its candidates and
into no other file. So it comes to the same report on two trees that differ only in what other files
hold.

* `FileSystem.SameShape`: file systems with the same paths, kinds of files and listings;
* `FileSystem.SameShape.resolve`: inputs resolve to the same candidates;
* `Checker.run_alike`: a run comes to the same report.
-/

namespace MigrationLint

variable {t u : FileTree} {F : Type} [PathFilter F]

namespace FileTree

theorem hasEntry_iff {l : Location} {name : String} :
    t.HasEntry l name ↔ t.entry? (l ++ [name]) ≠ none := by
  have hbelow : (l ++ [name]).isEmpty = false := by simp
  simp [HasEntry, entry?, hbelow]

/-- Directories have the same entries in both trees. -/
theorem SameKinds.hasEntry_iff (h : t.SameKinds u) (l : Location) (name : String) :
    t.HasEntry l name ↔ u.HasEntry l name := by
  rw [FileTree.hasEntry_iff, FileTree.hasEntry_iff]
  -- what is there may differ, but not whether anything is
  obtain hsame | ⟨e, e', ht, hu, -, -⟩ := h.entries (l ++ [name])
  · rw [hsame]
  · simp [ht, hu]

/-- Directories have the same names in both trees. -/
theorem SameKinds.names (h : t.SameKinds u) (l : Location) : t.names l = u.names l := by
  refine eq_of_pairwise_encode (pairwise_names t l) (pairwise_names u l) fun name => ?_
  rw [mem_names_iff, mem_names_iff, h.hasEntry_iff]

end FileTree

namespace FileSystem

variable {s u : FileSystem}

/-- Two file systems have the same paths, the same kinds of files and the same listings of
directories. What can be read may differ. -/
structure SameShape (s u : FileSystem) : Prop where
  exists? : ∀ p, s.exists? p = u.exists? p
  regular : ∀ p, s.isRegularFile p = u.isRegularFile p
  /-- The same paths lead to directories, which have the same names or cannot be listed for the same
  reason. -/
  listing : ∀ p, (s.directory? p).map s.list = (u.directory? p).map u.list

/-- An input stands for the same on both file systems. -/
theorem SameShape.scan (h : s.SameShape u) (f : F) (p : Path) : s.scan f p = u.scan f p := by
  have hlisting := h.listing p
  unfold FileSystem.scan
  rw [h.exists?]
  cases hs : s.directory? p with
  | none =>
    cases hu : u.directory? p with
    | none => rfl
    | some l' => simp [hs, hu] at hlisting
  | some l =>
    cases hu : u.directory? p with
    | none => simp [hs, hu] at hlisting
    | some l' =>
      have hlist : s.list l = u.list l' := by simpa [hs, hu] using hlisting
      dsimp only
      rw [hlist]

/-- The same is collected on both file systems. -/
theorem SameShape.collect (h : s.SameShape u) (f : F) (found inputs : List Path) :
    s.collect f found inputs = u.collect f found inputs := by
  induction inputs generalizing found with
  | nil => rfl
  | cons p inputs ih =>
    rw [FileSystem.collect, FileSystem.collect, h.scan]
    cases u.scan f p with
    | error failure => rfl
    | ok files => exact ih _

/-- Inputs resolve to the same candidates on both file systems, or fail to for the same reason. -/
theorem SameShape.resolve (h : s.SameShape u) (f : F) (inputs : List Path) :
    s.resolve f inputs = u.resolve f inputs := by
  unfold FileSystem.resolve
  simp only [h.exists?, h.collect]

end FileSystem

namespace FileTree

/-- File systems have the same shape if their trees differ only in what regular files hold, and if
they list directories alike. -/
theorem SameKinds.sameShape (h : t.SameKinds u) (list : Location → Except FileFault (List String)) :
    FileSystem.SameShape { t with list := list } { u with list := list } where
  exists? := h.exists?
  regular := h.isRegularFile
  listing p := congrArg (Option.map list) (h.directory? p)

/-- Trees that differ only in what regular files hold are listed alike. -/
theorem SameKinds.sameShape_listed (h : t.SameKinds u) : t.listed.SameShape u.listed where
  exists? := h.exists?
  regular := h.isRegularFile
  listing p := by
    have hlist : t.listed.list = u.listed.list := by
      funext l
      simp only [listed, fault?, h.closed, h.names]
    rw [hlist]
    exact congrArg (Option.map u.listed.list) (h.directory? p)

/-- Inputs resolve to the same candidates in both trees, or not at all for the same reason. -/
theorem SameKinds.resolve (h : t.SameKinds u) (f : F) (inputs : List Path) :
    t.resolve f inputs = u.resolve f inputs :=
  h.sameShape_listed.resolve f inputs

end FileTree

/-- A path reads to the same bytes in both trees, or fails to be read with the same message. -/
def FileTree.SameContent (t u : FileTree) (p : Path) : Prop :=
  (t.read p).mapError FileFault.message = (u.read p).mapError FileFault.message

/-- A run looks whether a path leads to a regular file, and reads it. -/
theorem inspect_of_sameContent {p : Path} (hregular : t.isRegularFile p = u.isRegularFile p)
    (hcontent : t.SameContent u p) (parser : SourceParser) (method : String) :
    inspect t parser method p = inspect u parser method p := by
  unfold FileTree.SameContent at hcontent
  unfold inspect Finding.ofPath
  rw [hregular]
  split
  · cases ht : t.read p with
    | error fault =>
      cases hu : u.read p with
      | error fault' =>
        -- the faults may differ, as long as they are worded alike
        have hmessage : fault.message = fault'.message := by
          simpa [ht, hu, Except.mapError] using hcontent
        simp only [Finding.verdict, hmessage]
      | ok bytes' => simp [ht, hu, Except.mapError] at hcontent
    | ok bytes =>
      cases hu : u.read p with
      | error fault' => simp [ht, hu, Except.mapError] at hcontent
      | ok bytes' =>
        obtain rfl : bytes = bytes' := by simpa [ht, hu, Except.mapError] using hcontent
        rfl
  · rfl

variable {places : Location → Prop}

/-- A file that leads to none of the places is the same for a run on both trees. -/
theorem inspect_alike {p : Path} (h : FileTree.AlikeBut places t u)
    (hp : ∀ l, t.LeadsTo p l → ¬places l) (parser : SourceParser) (method : String) :
    inspect t parser method p = inspect u parser method p := by
  refine inspect_of_sameContent (h.sameKinds.isRegularFile p) ?_ parser method
  unfold FileTree.SameContent FileTree.read
  rw [h.lookUp hp]

/-- If no candidate leads to a file that may differ, then a run comes to the same report. -/
theorem Checker.run_alike (h : FileTree.AlikeBut places t u) (c : Checker F) {inputs : List Path}
    (hcandidates : ∀ candidates, t.resolve c.filter inputs = .ok candidates →
      ∀ p ∈ candidates, ∀ l, t.LeadsTo p l → ¬places l) :
    c.run t inputs = c.run u inputs := by
  have hsame := h.sameKinds.resolve c.filter inputs
  cases hresolve : t.resolve c.filter inputs with
  | error failure => rw [run_of_error hresolve, run_of_error (hsame.symm.trans hresolve)]
  | ok candidates =>
    have hinspect : candidates.map (inspect t c.parser c.method) =
        candidates.map (inspect u c.parser c.method) :=
      List.map_congr_left fun p hp =>
        inspect_alike h (hcandidates candidates hresolve p hp) c.parser c.method
    by_cases hsome : candidates = []
    · subst hsome
      rw [run_of_nil hresolve, run_of_nil (hsame.symm.trans hresolve)]
    · rw [run_of_ok hresolve hsome, run_of_ok (hsame.symm.trans hresolve) hsome]
      exact congrArg (Report.completed inputs c.method) hinspect

end MigrationLint
