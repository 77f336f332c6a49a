import MigrationLint.Proofs.Check.Record
import MigrationLint.Proofs.FileTree.Spelling

/-!
# Spellings of a directory as an input

A directory that is given as an input may be spelled in many ways. Its entries are named after the
normal form of the path, so that paths with the same components stand for the same candidates and are
recognised as repetitions of each other.

* `Path.child`: a name behind a path, with one separator between them;
* `FileSystem.scan_eq_scan`: what a directory stands for does not depend on how it is spelled;
* `FileSystem.resolve_repeat`: an input that stands for what another one stands for adds nothing;
* `FileSystem.spelling_does_not_matter`: all of this together.
-/

namespace MigrationLint

variable {F : Type} [PathFilter F]

/-! ## Names in a directory -/

/-- A name behind a path, with one separator between them. There is none after the root. -/
def Path.child (p : Path) (name : String) : Path :=
  ⟨p.text ++ (if p.text = "/" then "" else "/") ++ name⟩

/-- A name in a directory is written behind the normal form of its path. -/
theorem Path.join_eq_child {p : Path} {name : String} (hp : p.IsNormal) (hsome : p.text ≠ "")
    (hname : '/' ∉ name.toList) : p.join name = p.child name := by
  have htext : (p.join name).text = (p.child name).text := by
    apply String.toList_inj.mp
    by_cases hroot : p.text = "/"
    · -- the root ends in a separator already
      have hopen : p.text.toList.getLast? = some '/' := by rw [hroot]; rfl
      simp [text_join_of_open (.inr hopen) hname, child, hroot]
    · have hclosed : p.text.toList.getLast? ≠ some '/' := fun hlast => hroot (hp.last hlast)
      have hnonempty : p.text.toList ≠ [] := by simpa using hsome
      simp [text_join hnonempty hclosed hname, child, hroot]
  exact congrArg Path.mk htext

namespace FileSystem

variable {s : FileSystem} {f : F} {p q : Path} {l l' : Location} {files : List Path}

/-- A directory exists. -/
theorem exists?_of_directory?_eq_some (h : s.directory? p = some l) : s.exists? p = true := by
  rw [FileTree.directory?_eq_some_iff] at h
  rw [FileTree.exists?_of_destination h rfl]
  rfl

/-- A directory stands for the names in it that the filter lets through. -/
theorem scan_of_directory? (f : F) (h : s.directory? p = some l) :
    s.scan f p = ((s.list l).mapError fun fault => .file (.unlisted p.normal.text fault)).map
      fun names => (names.map p.normal.join).filter (PathFilter.accepts f) := by
  have hexists := exists?_of_directory?_eq_some h
  cases hlist : s.list l with
  | error fault => exact scan_of_list_eq_error f hexists h hlist
  | ok names => exact scan_of_list_eq_ok f hexists h hlist

/-- The empty path does not lead to a directory. -/
theorem text_ne_empty_of_directory? (h : s.directory? p = some l) : p.text ≠ "" :=
  (FileTree.walkable_of_destination_eq_ok (FileTree.directory?_eq_some_iff.mp h)).someText

/-- A directory that is listed stands for its names, written behind the normal form of its path. -/
theorem scan_of_list {names : List String} (f : F) (h : s.directory? p = some l)
    (hlist : s.list l = .ok names) (hnames : ∀ name ∈ names, '/' ∉ name.toList) :
    s.scan f p = .ok ((names.map p.normal.child).filter (PathFilter.accepts f)) := by
  have hsome := Path.text_normal_ne_empty (text_ne_empty_of_directory? h)
  have hchild : names.map p.normal.join = names.map p.normal.child :=
    List.map_congr_left fun name hname =>
      Path.join_eq_child p.isNormal_normal hsome (hnames name hname)
  rw [scan_of_directory? f h, hlist, ← hchild]
  rfl

/-- What a directory stands for does not depend on how it is spelled. -/
theorem scan_eq_scan (f : F) (hp : s.directory? p = some l) (hq : s.directory? q = some l')
    (hsame : p.components = q.components) : s.scan f p = s.scan f q := by
  -- both paths lead to the same directory, and its names are written behind the same path
  obtain rfl := FileTree.eq_of_directory?_eq_some hsame hp hq
  rw [scan_of_directory? f hp, scan_of_directory? f hq, Path.normal_eq_normal_iff.mpr hsame]

/-! ## Inputs that stand for the same -/

/-- Adding paths keeps those that have been found, and takes in the new ones. -/
theorem mem_foldl_addPath {found : List Path} {a : Path} :
    a ∈ files.foldl addPath found ↔ a ∈ found ∨ a ∈ files := by
  induction files generalizing found with
  | nil => simp
  | cons b files ih =>
    have hadd : a ∈ addPath found b ↔ a ∈ found ∨ a = b := by
      unfold addPath
      split
      · next hfound =>
        refine (or_iff_left_of_imp ?_).symm
        rintro rfl
        exact List.contains_iff_mem.mp hfound
      · rw [List.mem_append, List.mem_singleton]
    rw [List.foldl_cons, ih, hadd, List.mem_cons, or_assoc]

/-- Adding paths that have been found adds nothing. -/
theorem foldl_addPath_of_forall_mem {found : List Path} (h : ∀ a ∈ files, a ∈ found) :
    files.foldl addPath found = found := by
  induction files with
  | nil => rfl
  | cons a files ih =>
    obtain ⟨ha, hrest⟩ := List.forall_mem_cons.mp h
    rw [List.foldl_cons, addPath, if_pos (List.contains_iff_mem.mpr ha), ih hrest]

/-- Inputs are collected into what those before them stand for. -/
theorem collect_append (s : FileSystem) (f : F) (found xs ys : List Path) :
    s.collect f found (xs ++ ys) = (s.collect f found xs).bind fun found => s.collect f found ys := by
  induction xs generalizing found with
  | nil => rfl
  | cons p xs ih =>
    rw [List.cons_append, collect, collect]
    cases s.scan f p with
    | error failure => rfl
    | ok files => exact ih _

/-- Nothing is lost from what has been found. -/
theorem mem_of_collect_eq_ok {found found' inputs : List Path}
    (h : s.collect f found inputs = .ok found') : ∀ a ∈ found, a ∈ found' := by
  induction inputs generalizing found with
  | nil => exact Except.ok.inj h ▸ fun _ ha => ha
  | cons p inputs ih =>
    rw [collect] at h
    split at h
    · cases h
    · exact fun a ha => ih h a (mem_foldl_addPath.mpr (.inl ha))

/-- An input that stands for what one before it stands for adds nothing. -/
theorem collect_repeat (hscan : s.scan f p = s.scan f q) (found ys zs : List Path) :
    s.collect f found (p :: (ys ++ q :: zs)) = s.collect f found (p :: (ys ++ zs)) := by
  rw [collect, collect]
  cases hfiles : s.scan f p with
  | error failure => rfl
  | ok files =>
    dsimp only
    rw [collect_append, collect_append]
    cases hys : s.collect f (files.foldl addPath found) ys with
    | error failure => rfl
    | ok found' =>
      -- everything that the second one stands for has been found
      have hmem : ∀ a ∈ files, a ∈ found' := fun a ha =>
        mem_of_collect_eq_ok hys a (mem_foldl_addPath.mpr (.inr ha))
      change s.collect f found' (q :: zs) = s.collect f found' zs
      rw [collect, ← hscan, hfiles]
      dsimp only
      rw [foldl_addPath_of_forall_mem hmem]

/-- An existing input that stands for what one before it stands for adds nothing. -/
theorem resolve_repeat (hp : s.exists? p = true) (hq : s.exists? q = true)
    (hscan : s.scan f p = s.scan f q) (xs ys zs : List Path) :
    s.resolve f (xs ++ p :: (ys ++ q :: zs)) = s.resolve f (xs ++ p :: (ys ++ zs)) := by
  -- neither of the two is missing, so that the same input is the first one that is
  have hfind : (xs ++ p :: (ys ++ q :: zs)).find? (fun p => !s.exists? p) =
      (xs ++ p :: (ys ++ zs)).find? fun p => !s.exists? p := by
    simp [List.find?_append, hp, hq]
  have hcollect : s.collect f [] (xs ++ p :: (ys ++ q :: zs)) =
      s.collect f [] (xs ++ p :: (ys ++ zs)) := by
    rw [collect_append, collect_append]
    simp only [collect_repeat hscan]
  rw [resolve, resolve, hfind, hcollect]

/-- Existing inputs that stand for the same can be given in each other's place. -/
theorem resolve_replace (hp : s.exists? p = true) (hq : s.exists? q = true)
    (hscan : s.scan f p = s.scan f q) (xs ys : List Path) :
    s.resolve f (xs ++ p :: ys) = s.resolve f (xs ++ q :: ys) := by
  have hfind : (xs ++ p :: ys).find? (fun p => !s.exists? p) =
      (xs ++ q :: ys).find? fun p => !s.exists? p := by
    simp [List.find?_append, hp, hq]
  have hcollect : s.collect f [] (xs ++ p :: ys) = s.collect f [] (xs ++ q :: ys) := by
    rw [collect_append, collect_append]
    simp only [collect, hscan]
  rw [resolve, resolve, hfind, hcollect]

/-- An input that stands for what one after it stands for adds nothing, but for the order. -/
theorem resolve_drop (hscan : s.scan f p = s.scan f q) (xs ys zs : List Path) :
    SameCandidates (s.resolve f (xs ++ p :: (ys ++ q :: zs)))
      (s.resolve f (xs ++ (ys ++ q :: zs))) := by
  refine sameCandidates_of_scans ?_ ?_
  · intro a ha
    rcases List.mem_append.mp ha with hxs | hrest
    · exact ⟨a, List.mem_append_left _ hxs, rfl⟩
    · rcases List.mem_cons.mp hrest with rfl | hrest
      · exact ⟨q, by simp, hscan⟩
      · exact ⟨a, List.mem_append_right _ hrest, rfl⟩
  · intro a ha
    rcases List.mem_append.mp ha with hxs | hrest
    · exact ⟨a, List.mem_append_left _ hxs, rfl⟩
    · exact ⟨a, List.mem_append_right _ (List.mem_cons_of_mem p hrest), rfl⟩

/-- A directory that is given as an input is rewritten to its normal form, which has the same
components, no separator or `.` that does not count, and every `..`. It leads to the same directory,
and what the input stands for are names behind it. So for paths of directories with the same
components, entries have the same paths, and pass or fail the same tests. Of several such inputs, any
one alone stands for the same candidates. -/
theorem spelling_does_not_matter (s : FileSystem) (f : F) :
    (∀ p l, s.directory? p = some l →
      p.normal.components = p.components ∧ p.normal.IsNormal ∧
      (Path.segments p.normal.text.toList).count ['.', '.'] =
        (Path.segments p.text.toList).count ['.', '.'] ∧
      p.normal.normal = p.normal ∧
      s.directory? p.normal = some l ∧
      ∀ names, s.list l = .ok names → (∀ name ∈ names, '/' ∉ name.toList) →
        s.scan f p = .ok ((names.map p.normal.child).filter (PathFilter.accepts f))) ∧
    (∀ p q l l', s.directory? p = some l → s.directory? q = some l' →
      p.components = q.components →
      s.scan f p = s.scan f q ∧
      (∀ (g : EntryFilter) (name : String),
        g.hasSuffix (p.normal.join name) = g.hasSuffix (q.normal.join name) ∧
        g.excludes (p.normal.join name) = g.excludes (q.normal.join name)) ∧
      ∀ xs ys zs,
        s.resolve f (xs ++ p :: (ys ++ q :: zs)) = s.resolve f (xs ++ p :: (ys ++ zs)) ∧
        s.resolve f (xs ++ p :: (ys ++ q :: zs)) = s.resolve f (xs ++ q :: (ys ++ zs)) ∧
        SameCandidates (s.resolve f (xs ++ p :: (ys ++ q :: zs)))
          (s.resolve f (xs ++ (ys ++ q :: zs)))) ∧
    ∀ (g : EntryFilter) (p q : Path), p.components = q.components →
      g.hasSuffix p = g.hasSuffix q := by
  refine ⟨?_, ?_, ?_⟩
  · intro p l hp
    exact ⟨p.components_normal, p.isNormal_normal, p.count_segments_normal rfl, p.normal_normal,
      FileTree.directory?_normal hp, fun names hlist hnames => scan_of_list f hp hlist hnames⟩
  · intro p q l l' hp hq hsame
    have hscan := scan_eq_scan f hp hq hsame
    have hpexists := exists?_of_directory?_eq_some hp
    have hqexists := exists?_of_directory?_eq_some hq
    refine ⟨hscan, fun g name => ?_, fun xs ys zs => ?_⟩
    · rw [Path.normal_eq_normal_iff.mpr hsame]
      exact ⟨rfl, rfl⟩
    · have hrepeat := resolve_repeat hpexists hqexists hscan xs ys zs
      exact ⟨hrepeat, hrepeat.trans (resolve_replace hpexists hqexists hscan xs (ys ++ zs)),
        resolve_drop hscan xs ys zs⟩
  · intro g p q hsame
    rw [EntryFilter.hasSuffix, EntryFilter.hasSuffix, Path.fileName?, Path.fileName?, hsame]

end FileSystem

/-- A directory is spelled in two ways, and given together with a file in it. -/
theorem mixedSystem_spelling_does_not_matter :
    (⟨"db//."⟩ : Path).normal.IsNormal ∧
    mixedSystem.scan rejectsEmpty.filter ⟨"db//."⟩ =
      .ok ((["a.php", "b.php", "c.php", "d.php"].map (⟨"db//."⟩ : Path).normal.child).filter
        (PathFilter.accepts rejectsEmpty.filter)) ∧
    mixedSystem.scan rejectsEmpty.filter ⟨"db//."⟩ =
      mixedSystem.scan rejectsEmpty.filter ⟨"db/./"⟩ ∧
    mixedSystem.resolve rejectsEmpty.filter [⟨"db//."⟩, ⟨"db/c.php"⟩, ⟨"db/./"⟩] =
      mixedSystem.resolve rejectsEmpty.filter [⟨"db//."⟩, ⟨"db/c.php"⟩] ∧
    rejectsEmpty.filter.hasSuffix ⟨"db//c.php/"⟩ = rejectsEmpty.filter.hasSuffix ⟨"db/c.php"⟩ := by
  obtain ⟨hform, hspelled, hsuffix⟩ :=
    FileSystem.spelling_does_not_matter mixedSystem rejectsEmpty.filter
  have hdots : mixedSystem.directory? ⟨"db//."⟩ = some ["db"] := by decide +kernel
  have hslash : mixedSystem.directory? ⟨"db/./"⟩ = some ["db"] := by decide +kernel
  obtain ⟨-, hnormal, -, -, -, hscan⟩ := hform ⟨"db//."⟩ ["db"] hdots
  obtain ⟨hsame, -, hresolve⟩ := hspelled ⟨"db//."⟩ ⟨"db/./"⟩ ["db"] ["db"] hdots hslash rfl
  exact ⟨hnormal, hscan _ rfl (by decide), hsame, (hresolve [] [⟨"db/c.php"⟩] []).1,
    hsuffix _ _ _ (by decide)⟩

end MigrationLint
