import MigrationLint.Check.Trace
import MigrationLint.Proofs.Check.Listing
import MigrationLint.Proofs.Text.ByteOrder

/-!
# What inputs resolve to

The candidates of a run are collected one input after another, into a list to which a path is added
only if it is not there yet. This file says what comes out in the end, without the collecting: either
the first input that does not exist, or what the inputs stand for one after the other, where each path
has the place of its first occurrence.

* `FirstOccurrences`: a list without its repetitions;
* `Expands`: what one input stands for;
* `FileTree.Resolves`: what comes out for all inputs;
* `FileTree.resolve_exact`: resolving inputs comes to exactly this.
-/

namespace MigrationLint

/-! ## Lists without repetitions -/

section FirstOccurrences

variable {α : Type} [BEq α]

/-- A list has the members of another one, each one once, in the order in which the other list has
them for the first time. -/
structure FirstOccurrences (as bs : List α) : Prop where
  /-- No member is lost and none is new. -/
  mem_iff : ∀ a, a ∈ bs ↔ a ∈ as
  /-- No member is there twice. -/
  nodup : bs.Nodup
  /-- The members keep the order of their first occurrences. -/
  ordered : bs.Pairwise fun a b => as.idxOf a < as.idxOf b

variable [LawfulBEq α]

/-- What is left without repetitions are the first occurrences. -/
theorem firstOccurrences_eraseDups (as : List α) : FirstOccurrences as as.eraseDups where
  mem_iff _ := List.mem_eraseDups
  nodup := nodup_eraseDups as
  ordered := by
    induction as using List.reverseRecOn with
    | nil => exact List.Pairwise.nil
    | append_singleton as a ih =>
      -- what is put at the end does not move the first occurrences of what is there already
      have hstay : as.eraseDups.Pairwise fun b c => (as ++ [a]).idxOf b < (as ++ [a]).idxOf c := by
        refine ih.imp_of_mem fun {b c} hb hc hlt => ?_
        rw [List.idxOf_append_of_mem (List.mem_eraseDups.mp hb),
          List.idxOf_append_of_mem (List.mem_eraseDups.mp hc)]
        exact hlt
      rw [eraseDups_concat]
      split
      · exact hstay
      · next ha =>
        refine List.pairwise_append.mpr ⟨hstay, List.pairwise_singleton _ a, fun b hb c hc => ?_⟩
        obtain rfl := List.mem_singleton.mp hc
        have hb := List.mem_eraseDups.mp hb
        rw [List.idxOf_append_of_mem hb, List.idxOf_append_of_notMem ha]
        exact Nat.lt_of_lt_of_le (List.idxOf_lt_length_of_mem hb) (Nat.le_add_right _ _)

/-- There is only one list with the first occurrences of another one. -/
theorem FirstOccurrences.eq_eraseDups {as bs : List α} (h : FirstOccurrences as bs) :
    bs = as.eraseDups := by
  have h' := firstOccurrences_eraseDups as
  have hperm : bs.Perm as.eraseDups := by
    rw [List.perm_ext_iff_of_nodup h.nodup h'.nodup]
    intro a
    rw [h.mem_iff, h'.mem_iff]
  refine hperm.eq_of_pairwise ?_ h.ordered h'.ordered
  intro a b _ _ hab hba
  omega

end FirstOccurrences

/-! ## Directories -/

namespace FileTree

/-- Something with the given name is in the directory. -/
def HasEntry (t : FileTree) (l : Location) (name : String) : Prop :=
  ∃ e, (l ++ [name], e) ∈ t.entries

/-- The names in a directory are those of its entries, and not of entries further below. -/
theorem mem_names_iff {t : FileTree} {l : Location} {name : String} :
    name ∈ t.names l ↔ t.HasEntry l name := by
  rw [names, List.mem_mergeSort, List.mem_eraseDups, List.mem_filterMap]
  constructor
  · rintro ⟨⟨place, e⟩, hentry, hname⟩
    dsimp only at hname
    split at hname
    · next last hlast =>
      split at hname
      · next hdirectory =>
        obtain rfl : last = name := Option.some.inj hname
        obtain ⟨above, rfl⟩ := List.getLast?_eq_some_iff.mp hlast
        rw [List.dropLast_concat] at hdirectory
        exact ⟨e, hdirectory ▸ hentry⟩
      · nomatch hname
    · nomatch hname
  · rintro ⟨e, hentry⟩
    exact ⟨(l ++ [name], e), hentry, by simp⟩

/-- The names in a directory strictly increase, compared by their bytes. -/
theorem pairwise_names (t : FileTree) (l : Location) :
    (t.names l).Pairwise fun a b => Utf8.encode a.toList < Utf8.encode b.toList := by
  have hnodup : (t.names l).Nodup := by
    rw [names]
    exact (List.mergeSort_perm _ _).nodup_iff.mpr (nodup_eraseDups _)
  have hle : ∀ a b : String, (!decide (b < a)) = true ↔ a ≤ b := by
    intro a b
    rw [Bool.not_eq_true', decide_eq_false_iff_not, String.not_lt]
  have hsorted : (t.names l).Pairwise fun a b => a ≤ b := by
    rw [names]
    refine (List.pairwise_mergeSort ?_ ?_ _).imp fun {a b} => (hle a b).mp
    · intro a b c hab hbc
      exact (hle a c).mpr (String.le_trans ((hle a b).mp hab) ((hle b c).mp hbc))
    · intro a b
      rw [Bool.or_eq_true, hle, hle]
      exact String.le_total a b
  -- names are sorted as texts, and no two of them are equal
  refine (hsorted.and hnodup).imp ?_
  rintro a b ⟨hle, hne⟩
  have hlt : a < b := Std.lt_of_le_of_ne hle hne
  exact Utf8.encode_lt_encode hlt

end FileTree

/-- There is only one list of given names in which they strictly increase. -/
theorem eq_of_pairwise_encode {names names' : List String}
    (hsorted : names.Pairwise fun a b => Utf8.encode a.toList < Utf8.encode b.toList)
    (hsorted' : names'.Pairwise fun a b => Utf8.encode a.toList < Utf8.encode b.toList)
    (hmem : ∀ name, name ∈ names ↔ name ∈ names') : names = names' := by
  have hirrefl : ∀ a b : String, Utf8.encode a.toList < Utf8.encode b.toList → a ≠ b := by
    rintro a _ hlt rfl
    exact List.lt_irrefl _ hlt
  have hperm : names.Perm names' := by
    rw [List.perm_ext_iff_of_nodup (hsorted.imp (hirrefl _ _)) (hsorted'.imp (hirrefl _ _))]
    exact hmem
  refine hperm.eq_of_pairwise ?_ hsorted hsorted'
  intro a b _ _ hab hba
  exact absurd hba (List.lt_asymm hab)

/-! ## Inputs -/

variable {F : Type} [PathFilter F]

/-- What an input path that exists stands for. -/
inductive Expands (t : FileTree) (f : F) (p : Path) : List Path → Prop
  /-- A path that does not lead to a directory stands for itself, whatever the filter says. -/
  | itself (hfile : t.directory? p = none) : Expands t f p [p]
  /-- A directory that can be listed stands for those of its own entries that the filter lets through,
  by increasing bytes of their names. -/
  | entries {l : Location} {names : List String} (hdirectory : t.directory? p = some l)
      (hopen : t.fault? l = none)
      (hmem : ∀ name, name ∈ names ↔
        t.HasEntry l name ∧ PathFilter.accepts f (p.normal.join name) = true)
      (hsorted : names.Pairwise fun a b => Utf8.encode a.toList < Utf8.encode b.toList) :
      Expands t f p (names.map p.normal.join)

namespace FileTree

variable {t : FileTree} {f : F} {p : Path} {l : Location} {inputs : List Path}

/-- A directory of a tree is listed with the names of its entries, unless it is closed, -/
theorem list_listed_eq_ok_iff {names : List String} :
    t.listed.list l = .ok names ↔ t.fault? l = none ∧ t.names l = names := by
  unfold listed
  cases hfault : t.fault? l with
  | none => simp [hfault]
  | some fault => simp [hfault]

/-- and a closed one is not, for the reason that it is closed for. -/
theorem list_listed_eq_error_iff {fault : FileFault} :
    t.listed.list l = .error fault ↔ t.fault? l = some fault := by
  unfold listed
  cases hfault : t.fault? l with
  | none => simp [hfault]
  | some fault' => simp [hfault]

/-- A scan finds what the path stands for, and nothing else. -/
theorem scan_eq_ok_iff {files : List Path} :
    t.scan f p = .ok files ↔ t.exists? p = true ∧ Expands t f p files := by
  constructor
  · intro h
    obtain ⟨-, hscan⟩ | ⟨hexists, ⟨hfile, hscan⟩ | ⟨l, hdirectory, hlist⟩⟩ :=
      FileSystem.scan_cases t.listed f p
    · cases h.symm.trans hscan
    · obtain rfl := Except.ok.inj (h.symm.trans hscan)
      exact ⟨hexists, .itself hfile⟩
    · obtain ⟨names, hnames, hscan⟩ | ⟨fault, -, hscan⟩ := hlist
      · obtain rfl := Except.ok.inj (h.symm.trans hscan)
        obtain ⟨hopen, rfl⟩ := list_listed_eq_ok_iff.mp hnames
        rw [List.filter_map]
        refine ⟨hexists, .entries hdirectory hopen ?_ ((pairwise_names t l).filter _)⟩
        intro name
        rw [List.mem_filter, mem_names_iff, Function.comp_apply]
      · cases h.symm.trans hscan
  · rintro ⟨hexists, hfile | @⟨l, names, hdirectory, hopen, hmem, hsorted⟩⟩
    · exact FileSystem.scan_of_file (s := t.listed) f hexists hfile
    · -- there is only one way to put the names in order
      have hnames : names =
          (t.names l).filter (PathFilter.accepts f ∘ p.normal.join) := by
        refine eq_of_pairwise_encode hsorted ((pairwise_names t l).filter _) fun name => ?_
        rw [hmem, List.mem_filter, mem_names_iff, Function.comp_apply]
      rw [hnames, ← List.filter_map]
      exact FileSystem.scan_of_list_eq_ok (s := t.listed) f hexists hdirectory
        (list_listed_eq_ok_iff.mpr ⟨hopen, rfl⟩)

/-- What inputs resolve to. -/
inductive Resolves (t : FileTree) (f : F) : List Path → Except Failure (List Path) → Prop
  /-- The first input that does not exist. -/
  | missing {p : Path} {before after : List Path} (hbefore : ∀ q ∈ before, t.exists? q = true)
      (hmissing : t.exists? p = false) :
      Resolves t f (before ++ p :: after) (.error (.pathNotFound p))
  /-- If all inputs exist, the first directory among them that cannot be listed. -/
  | unlisted {p : Path} {before after : List Path} {l : Location} {fault : FileFault}
      (hexist : ∀ q ∈ before ++ p :: after, t.exists? q = true)
      (hbefore : ∀ q ∈ before, ∀ l, t.directory? q = some l → t.fault? l = none)
      (hdirectory : t.directory? p = some l) (hfault : t.fault? l = some fault) :
      Resolves t f (before ++ p :: after) (.error (.file (.unlisted p.normal.text fault)))
  /-- What the inputs stand for, one after the other, with only the first occurrence of each path. -/
  | found {inputs candidates : List Path} {expansion : Path → List Path}
      (hexist : ∀ p ∈ inputs, t.exists? p = true)
      (hexpand : ∀ p ∈ inputs, Expands t f p (expansion p))
      (hfirst : FirstOccurrences (inputs.flatMap expansion) candidates) :
      Resolves t f inputs (.ok candidates)

/-- A path can be scanned iff it exists and does not lead to a closed directory. -/
theorem exists_scan_iff (f : F) : (∃ files, t.scan f p = .ok files) ↔
    t.exists? p = true ∧ ∀ l, t.directory? p = some l → t.fault? l = none := by
  rw [scan, FileSystem.exists_scan_iff, FileSystem.CanList]
  simp only [list_listed_eq_ok_iff, exists_and_left, exists_eq', and_true]
  rfl

/-- Resolving inputs comes to what they resolve to. -/
theorem resolves_resolve (t : FileTree) (f : F) (inputs : List Path) :
    Resolves t f inputs (t.resolve f inputs) := by
  cases hfind : inputs.find? fun p => !t.exists? p with
  | some p =>
    have hfirst : t.listed.FirstMissing inputs p := FileSystem.firstMissing_iff.mpr hfind
    rw [resolve, FileSystem.resolve_eq_pathNotFound_iff.mpr hfirst]
    obtain ⟨hmissing, before, after, rfl, hbefore⟩ := hfirst
    exact .missing hbefore hmissing
  | none =>
    have hexist : ∀ p ∈ inputs, t.exists? p = true := by simpa using hfind
    cases hresolve : t.resolve f inputs with
    | ok candidates =>
      obtain ⟨hscans, rfl⟩ := FileSystem.resolve_eq_ok_iff.mp hresolve
      refine .found hexist (fun p hp => ?_) (firstOccurrences_eraseDups _)
      obtain ⟨files, hscan⟩ := hscans p hp
      rw [FileSystem.found_of_scan hscan]
      exact (scan_eq_ok_iff.mp hscan).2
    | error failure =>
      obtain ⟨before, p, after, rfl, hbefore, hscan⟩ :=
        (FileSystem.resolve_eq_error_iff_of_exist (s := t.listed) hexist).mp hresolve
      -- the input exists, and so it is a directory that cannot be listed
      obtain ⟨hmissing, -⟩ | ⟨-, l, fault, hdirectory, hfault, rfl⟩ :=
        FileSystem.eq_of_scan_eq_error hscan
      · rw [toFileTree_listed, hexist p (by simp)] at hmissing
        cases hmissing
      · exact .unlisted hexist (fun q hq => ((exists_scan_iff f).mp (hbefore q hq)).2) hdirectory
          (list_listed_eq_error_iff.mp hfault)

/-- Resolving inputs comes to a result iff this is what they resolve to. -/
theorem resolve_eq_iff {result : Except Failure (List Path)} :
    t.resolve f inputs = result ↔ Resolves t f inputs result := by
  refine ⟨fun h => h ▸ resolves_resolve t f inputs, fun h => ?_⟩
  cases h with
  | @missing p before after hbefore hmissing =>
    exact FileSystem.resolve_eq_pathNotFound_iff.mpr ⟨hmissing, before, after, rfl, hbefore⟩
  | @unlisted p before after l fault hexist hbefore hdirectory hfault =>
    have hexists : t.exists? p = true := hexist p (by simp)
    refine (FileSystem.resolve_eq_error_iff_of_exist (s := t.listed) hexist).mpr
      ⟨before, p, after, rfl, fun q hq => (exists_scan_iff f).mpr ⟨?_, hbefore q hq⟩, ?_⟩
    · exact hexist q (List.mem_append_left _ hq)
    · exact FileSystem.scan_of_list_eq_error (s := t.listed) f hexists hdirectory
        (list_listed_eq_error_iff.mpr hfault)
  | @found _ candidates expansion hexist hexpand hfirst =>
    have hscan : ∀ p ∈ inputs, t.scan f p = .ok (expansion p) := fun p hp =>
      scan_eq_ok_iff.mpr ⟨hexist p hp, hexpand p hp⟩
    -- there is no choice in what each input stands for, nor in its first occurrences
    have hmap : inputs.map expansion = inputs.map (t.listed.found f) :=
      List.map_congr_left fun p hp => (FileSystem.found_of_scan (hscan p hp)).symm
    refine FileSystem.resolve_eq_ok_iff.mpr ⟨fun p hp => ⟨_, hscan p hp⟩, ?_⟩
    rw [hfirst.eq_eraseDups, List.flatMap_def, List.flatMap_def, hmap]

/-- Resolving inputs comes to what they resolve to and to nothing else. If an input is missing,
nothing is scanned; if inputs are resolved, every scan succeeds. -/
theorem resolve_exact (t : FileTree) (f : F) (inputs : List Path) :
    (∀ result, t.resolve f inputs = result ↔ Resolves t f inputs result) ∧
    (∀ p, t.resolve f inputs = .error (.pathNotFound p) → ∀ c : Checker F, c.filter = f →
      c.events t inputs = [.resolutionFailed (Failure.pathNotFound p).message]) ∧
    ∀ candidates, t.resolve f inputs = .ok candidates →
      ∀ p ∈ inputs, ∃ files, t.scan f p = .ok files := by
  refine ⟨fun _ => resolve_eq_iff, ?_, fun candidates hok => (FileSystem.resolve_eq_ok_iff.mp hok).1⟩
  rintro p hmissing c rfl
  have hresolve : t.listed.resolve c.filter inputs = .error (.pathNotFound p) := hmissing
  have hsome : ¬inputs.all t.listed.exists? = true := by
    obtain ⟨hfirst, before, after, rfl, -⟩ := FileSystem.resolve_eq_pathNotFound_iff.mp hmissing
    intro hall
    rw [List.all_eq_true.mp hall p (by simp)] at hfirst
    cases hfirst
  rw [Checker.events, Checker.resolutionEvents, if_neg hsome, hresolve]
  rfl

end FileTree

/-- A directory with a file, and another file beside it. -/
def oneDirectory : FileTree where
  entries := [(["db"], .directory), (["db", "a.php"], .file []), (["b.php"], .file [])]

/-- An input that is given twice is found once. If an input is missing, nothing is scanned, although
there is a directory before it. -/
theorem oneDirectory_resolve_exact :
    oneDirectory.Resolves (⟨".php", []⟩ : EntryFilter) [⟨"b.php"⟩, ⟨"db/a.php"⟩, ⟨"b.php"⟩]
      (.ok [⟨"b.php"⟩, ⟨"db/a.php"⟩]) ∧
    (∀ p ∈ [⟨"b.php"⟩, ⟨"db/a.php"⟩, ⟨"b.php"⟩],
      ∃ files, oneDirectory.scan (⟨".php", []⟩ : EntryFilter) p = .ok files) ∧
    ∀ c : Checker, c.filter = ⟨".php", []⟩ →
      c.events oneDirectory [⟨"db"⟩, ⟨"none"⟩] =
        [.resolutionFailed (Failure.message (.pathNotFound ⟨"none"⟩))] := by
  have hfound := FileTree.resolve_exact oneDirectory (⟨".php", []⟩ : EntryFilter)
    [⟨"b.php"⟩, ⟨"db/a.php"⟩, ⟨"b.php"⟩]
  have hmissing := FileTree.resolve_exact oneDirectory (⟨".php", []⟩ : EntryFilter)
    [⟨"db"⟩, ⟨"none"⟩]
  exact ⟨(hfound.1 _).mp rfl, hfound.2.2 _ rfl, hmissing.2.1 _ rfl⟩

end MigrationLint
