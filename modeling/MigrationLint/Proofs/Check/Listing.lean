import Mathlib.Data.List.Induction
import Mathlib.Data.List.Nodup
import MigrationLint.Check.Candidates

/-!
# What inputs resolve to on a file system

The candidates of a run are collected one input after another, into a list to which a path is added
only if it is not there yet. Inputs can be resolved iff each of them can be scanned, that is, exists
and is listed if it is a directory. What they resolve to is then what the scans find, one after the
other and without repetitions.

* `FileSystem.exists_scan_iff`: when an input can be scanned;
* `FileSystem.resolve_eq_ok_iff`: inputs are resolved by scanning each of them;
* `FileSystem.resolve_eq_pathNotFound_iff`: the input that is missed is the first one to be missing;
* `FileSystem.resolve_eq_error_iff_of_exist`: otherwise it is the first one that cannot be scanned;
* `FileSystem.sameCandidates_of_scans`: inputs that stand for the same.
-/

namespace MigrationLint

/-! ## Lists without repetitions -/

section Repetitions

variable {α : Type} [BEq α] [LawfulBEq α]

/-- A member at the end of a list is a repetition if it is there already. -/
theorem eraseDups_concat (as : List α) (a : α) :
    (as ++ [a]).eraseDups = if a ∈ as then as.eraseDups else as.eraseDups ++ [a] := by
  have hone : [a].eraseDups = [a] := rfl
  rw [List.eraseDups_append, List.removeAll, List.filter_cons, List.filter_nil]
  by_cases ha : a ∈ as
  · simp [ha]
  · simp [ha, hone]

/-- No member is left twice. -/
theorem nodup_eraseDups (as : List α) : as.eraseDups.Nodup := by
  induction as using List.reverseRecOn with
  | nil => exact List.nodup_nil
  | append_singleton as a ih =>
    rw [eraseDups_concat]
    split
    · exact ih
    · next ha =>
      rw [← List.concat_eq_append, List.nodup_concat, List.mem_eraseDups]
      exact ⟨ha, ih⟩

end Repetitions

/-- Paths that are added one after the other are those of all of them, without repetitions. -/
theorem foldl_addPath (ps qs : List Path) :
    qs.foldl addPath ps.eraseDups = (ps ++ qs).eraseDups := by
  -- by induction on what is added; what has been found so far only has to be some list without
  -- repetitions
  induction qs generalizing ps with
  | nil => rw [List.foldl_nil, List.append_nil]
  | cons q qs ih =>
    have hadd : addPath ps.eraseDups q = (ps ++ [q]).eraseDups := by
      rw [addPath, eraseDups_concat]
      simp only [List.contains_iff_mem, List.mem_eraseDups]
    rw [List.foldl_cons, hadd, ih, List.append_assoc, List.singleton_append]

variable {F : Type} [PathFilter F]

namespace FileSystem

variable {s : FileSystem} {f : F} {p q : Path} {l : Location} {inputs candidates : List Path}

/-! ## Scanning -/

/-- The path does not lead to a directory that the system refuses to list. -/
def CanList (s : FileSystem) (p : Path) : Prop :=
  ∀ l, s.directory? p = some l → ∃ names, s.list l = .ok names

/-- A path that exists and does not lead to a directory stands for itself. -/
theorem scan_of_file (f : F) (hexists : s.exists? p = true) (hfile : s.directory? p = none) :
    s.scan f p = .ok [p] := by
  rw [scan, if_pos hexists, hfile]

/-- A directory that is listed stands for the names in it that the filter lets through. -/
theorem scan_of_list_eq_ok (f : F) (hexists : s.exists? p = true)
    (hdirectory : s.directory? p = some l) {names : List String} (hlist : s.list l = .ok names) :
    s.scan f p = .ok ((names.map p.normal.join).filter (PathFilter.accepts f)) := by
  rw [scan, if_pos hexists, hdirectory]
  dsimp only
  rw [hlist]

/-- A directory that is not listed cannot be scanned, for the reason that the system has. -/
theorem scan_of_list_eq_error (f : F) (hexists : s.exists? p = true)
    (hdirectory : s.directory? p = some l) {fault : FileFault} (hlist : s.list l = .error fault) :
    s.scan f p = .error (.file (.unlisted p.normal.text fault)) := by
  rw [scan, if_pos hexists, hdirectory]
  dsimp only
  rw [hlist]

/-- What a scan comes to: a path that leads nowhere, a file, or a directory that is listed or not. -/
theorem scan_cases (s : FileSystem) (f : F) (p : Path) :
    s.exists? p = false ∧ s.scan f p = .error (.pathNotFound p) ∨
    s.exists? p = true ∧
      (s.directory? p = none ∧ s.scan f p = .ok [p] ∨
        ∃ l, s.directory? p = some l ∧
          ((∃ names, s.list l = .ok names ∧
              s.scan f p = .ok ((names.map p.normal.join).filter (PathFilter.accepts f))) ∨
            ∃ fault, s.list l = .error fault ∧
              s.scan f p = .error (.file (.unlisted p.normal.text fault)))) := by
  cases hexists : s.exists? p with
  | false => exact .inl ⟨rfl, by rw [scan, hexists, if_neg Bool.false_ne_true]⟩
  | true =>
    refine .inr ⟨rfl, ?_⟩
    cases hdirectory : s.directory? p with
    | none => exact .inl ⟨rfl, scan_of_file f hexists hdirectory⟩
    | some l =>
      refine .inr ⟨l, rfl, ?_⟩
      cases hlist : s.list l with
      | ok names => exact .inl ⟨names, rfl, scan_of_list_eq_ok f hexists hdirectory hlist⟩
      | error fault => exact .inr ⟨fault, rfl, scan_of_list_eq_error f hexists hdirectory hlist⟩

/-- Only a path that leads somewhere can be scanned. -/
theorem exists?_of_scan_eq_ok {files : List Path} (h : s.scan f p = .ok files) :
    s.exists? p = true := by
  obtain ⟨-, hscan⟩ | ⟨hexists, -⟩ := scan_cases s f p
  · rw [hscan] at h
    cases h
  · exact hexists

/-- A scan finds a file, or the names in a directory that the filter lets through. -/
theorem cases_of_scan_eq_ok {files : List Path} (h : s.scan f p = .ok files) :
    s.directory? p = none ∧ files = [p] ∨
      ∃ l names, s.directory? p = some l ∧ s.list l = .ok names ∧
        files = (names.map p.normal.join).filter (PathFilter.accepts f) := by
  obtain ⟨-, hscan⟩ | ⟨-, ⟨hfile, hscan⟩ | ⟨l, hdirectory, hlist⟩⟩ := scan_cases s f p
  · rw [hscan] at h
    cases h
  · exact .inl ⟨hfile, Except.ok.inj (h.symm.trans hscan)⟩
  · obtain ⟨names, hnames, hscan⟩ | ⟨fault, -, hscan⟩ := hlist
    · exact .inr ⟨l, names, hdirectory, hnames, Except.ok.inj (h.symm.trans hscan)⟩
    · rw [hscan] at h
      cases h

/-- A scan fails on a path that leads nowhere, and on a directory that is not listed. -/
theorem eq_of_scan_eq_error {failure : Failure} (h : s.scan f p = .error failure) :
    s.exists? p = false ∧ failure = .pathNotFound p ∨
      s.exists? p = true ∧ ∃ l fault, s.directory? p = some l ∧ s.list l = .error fault ∧
        failure = .file (.unlisted p.normal.text fault) := by
  obtain ⟨hmissing, hscan⟩ | ⟨hexists, ⟨-, hscan⟩ | ⟨l, hdirectory, hlist⟩⟩ := scan_cases s f p
  · exact .inl ⟨hmissing, Except.error.inj (h.symm.trans hscan)⟩
  · rw [hscan] at h
    cases h
  · obtain ⟨names, -, hscan⟩ | ⟨fault, hfault, hscan⟩ := hlist
    · rw [hscan] at h
      cases h
    · exact .inr ⟨hexists, l, fault, hdirectory, hfault, Except.error.inj (h.symm.trans hscan)⟩

/-- A path can be scanned iff it exists and is listed if it leads to a directory. -/
theorem exists_scan_iff (f : F) :
    (∃ files, s.scan f p = .ok files) ↔ s.exists? p = true ∧ s.CanList p := by
  obtain ⟨hmissing, hscan⟩ | ⟨hexists, ⟨hfile, hscan⟩ | ⟨l, hdirectory, hlist⟩⟩ := scan_cases s f p
  · simp [hmissing, hscan]
  · simp [hexists, hscan, CanList, hfile]
  · obtain ⟨names, hnames, hscan⟩ | ⟨fault, hfault, hscan⟩ := hlist
    · simp [hexists, hscan, CanList, hdirectory, hnames]
    · simp [hscan, CanList, hdirectory, hfault]

/-! ## Resolving -/

/-- What a scan of an input finds. A scan that fails finds nothing. -/
def found (s : FileSystem) (f : F) (p : Path) : List Path :=
  (s.scan f p).toOption.getD []

theorem found_of_scan {files : List Path} (h : s.scan f p = .ok files) : s.found f p = files := by
  rw [found, h]
  rfl

/-- Inputs are collected iff all scans succeed. Then repetitions are left out. -/
theorem collect_eq_ok_iff (before : List Path) :
    s.collect f before.eraseDups inputs = .ok candidates ↔
      (∀ p ∈ inputs, ∃ files, s.scan f p = .ok files) ∧
        candidates = (before ++ inputs.flatMap (s.found f)).eraseDups := by
  induction inputs generalizing before with
  | nil =>
    rw [collect, Except.ok.injEq, List.flatMap_nil, List.append_nil, eq_comm]
    exact (and_iff_right (by simp)).symm
  | cons p inputs ih =>
    rw [collect, List.forall_mem_cons]
    cases hscan : s.scan f p with
    | error failure => simp
    | ok files =>
      -- what has been found so far stays in front
      dsimp only
      rw [foldl_addPath, ih, List.flatMap_cons, found_of_scan hscan, List.append_assoc]
      exact and_congr_left fun _ => (and_iff_right ⟨files, rfl⟩).symm

/-- Collecting stops at the first input whose scan fails. -/
theorem collect_eq_error_iff {found : List Path} {failure : Failure} :
    s.collect f found inputs = .error failure ↔
      ∃ before p after, inputs = before ++ p :: after ∧
        (∀ q ∈ before, ∃ files, s.scan f q = .ok files) ∧ s.scan f p = .error failure := by
  induction inputs generalizing found with
  | nil =>
    refine iff_of_false nofun ?_
    rintro ⟨before, p, after, hinputs, -⟩
    exact List.append_ne_nil_of_right_ne_nil before (List.cons_ne_nil p after) hinputs.symm
  | cons p inputs ih =>
    rw [collect]
    constructor
    · intro h
      cases hscan : s.scan f p with
      | error failure' =>
        rw [hscan] at h
        exact ⟨[], p, inputs, rfl, List.forall_mem_nil _, hscan.trans h⟩
      | ok files =>
        rw [hscan] at h
        obtain ⟨before, q, after, rfl, hbefore, hfails⟩ := ih.mp h
        exact ⟨p :: before, q, after, rfl, List.forall_mem_cons.mpr ⟨⟨files, hscan⟩, hbefore⟩, hfails⟩
    · rintro ⟨before, q, after, hinputs, hbefore, hfails⟩
      cases before with
      | nil =>
        obtain ⟨rfl, rfl⟩ := List.cons.inj hinputs
        rw [hfails]
      | cons first before =>
        obtain ⟨rfl, rfl⟩ := List.cons.inj hinputs
        obtain ⟨⟨files, hscan⟩, hbefore⟩ := List.forall_mem_cons.mp hbefore
        rw [hscan]
        exact ih.mpr ⟨before, q, after, rfl, hbefore, hfails⟩

/-- If all inputs exist, they are scanned one after the other. -/
theorem resolve_of_exist (f : F) (hexist : ∀ p ∈ inputs, s.exists? p = true) :
    s.resolve f inputs = s.collect f [] inputs := by
  have hnone : inputs.find? (fun p => !s.exists? p) = none := by simpa using hexist
  rw [resolve, hnone]

/-- Inputs resolve to candidates iff all scans succeed. The candidates are what the scans find, one
after the other and without repetitions. -/
theorem resolve_eq_ok_iff :
    s.resolve f inputs = .ok candidates ↔
      (∀ p ∈ inputs, ∃ files, s.scan f p = .ok files) ∧
        candidates = (inputs.flatMap (s.found f)).eraseDups := by
  by_cases hexist : ∀ p ∈ inputs, s.exists? p = true
  · rw [resolve_of_exist f hexist]
    exact collect_eq_ok_iff []
  · refine iff_of_false ?_ ?_
    · intro hok
      unfold resolve at hok
      split at hok
      · cases hok
      · next hfind => exact hexist (by simpa using hfind)
    · -- a scan that succeeds shows that its input exists
      rintro ⟨hscans, -⟩
      refine hexist fun p hp => ?_
      obtain ⟨files, hscan⟩ := hscans p hp
      exact exists?_of_scan_eq_ok hscan

/-- Inputs that are resolved all exist. -/
theorem exists?_of_resolve_eq_ok (h : s.resolve f inputs = .ok candidates) :
    ∀ p ∈ inputs, s.exists? p = true := by
  intro p hp
  obtain ⟨files, hscan⟩ := (resolve_eq_ok_iff.mp h).1 p hp
  exact exists?_of_scan_eq_ok hscan

/-- A candidate is found by one of the scans. -/
theorem mem_iff_of_resolve_eq_ok (h : s.resolve f inputs = .ok candidates) :
    q ∈ candidates ↔ ∃ p ∈ inputs, q ∈ s.found f p := by
  rw [(resolve_eq_ok_iff.mp h).2, List.mem_eraseDups, List.mem_flatMap]

/-- The path is an input that does not lead to a directory. -/
def Explicit (s : FileSystem) (inputs : List Path) (q : Path) : Prop :=
  q ∈ inputs ∧ s.directory? q = none

/-- The path is that of an entry of an input that leads to a directory. -/
def Entry (s : FileSystem) (inputs : List Path) (q : Path) : Prop :=
  ∃ p ∈ inputs, ∃ l names name, s.directory? p = some l ∧ s.list l = .ok names ∧ name ∈ names ∧
    q = p.normal.join name

/-- The candidates are the inputs that are not directories and the entries of the others that the
filter lets through. -/
theorem mem_iff_of_resolve (h : s.resolve f inputs = .ok candidates) {q : Path} :
    q ∈ candidates ↔
      s.Explicit inputs q ∨ s.Entry inputs q ∧ PathFilter.accepts f q = true := by
  have hscans := (resolve_eq_ok_iff.mp h).1
  rw [mem_iff_of_resolve_eq_ok h]
  constructor
  · rintro ⟨p, hp, hq⟩
    obtain ⟨files, hscan⟩ := hscans p hp
    rw [found_of_scan hscan] at hq
    obtain ⟨hfile, rfl⟩ | ⟨l, names, hdirectory, hlist, rfl⟩ := cases_of_scan_eq_ok hscan
    · obtain rfl := List.mem_singleton.mp hq
      exact .inl ⟨hp, hfile⟩
    · rw [List.mem_filter, List.mem_map] at hq
      obtain ⟨⟨name, hname, rfl⟩, haccepts⟩ := hq
      exact .inr ⟨⟨p, hp, l, names, name, hdirectory, hlist, hname, rfl⟩, haccepts⟩
  · rintro (⟨hq, hfile⟩ | ⟨⟨p, hp, l, names, name, hdirectory, hlist, hname, rfl⟩, haccepts⟩)
    · have hexists := exists?_of_resolve_eq_ok h q hq
      refine ⟨q, hq, ?_⟩
      rw [found_of_scan (scan_of_file f hexists hfile)]
      exact List.mem_singleton_self q
    · have hexists := exists?_of_resolve_eq_ok h p hp
      refine ⟨p, hp, ?_⟩
      rw [found_of_scan (scan_of_list_eq_ok f hexists hdirectory hlist), List.mem_filter]
      exact ⟨List.mem_map_of_mem hname, haccepts⟩

/-- No candidate is there twice. -/
theorem nodup_of_resolve_eq_ok (h : s.resolve f inputs = .ok candidates) : candidates.Nodup := by
  rw [(resolve_eq_ok_iff.mp h).2]
  exact nodup_eraseDups _

/-- Inputs that all exist cannot be resolved iff one of them cannot be scanned. The first such input
says why. -/
theorem resolve_eq_error_iff_of_exist {failure : Failure}
    (hexist : ∀ p ∈ inputs, s.exists? p = true) :
    s.resolve f inputs = .error failure ↔
      ∃ before p after, inputs = before ++ p :: after ∧
        (∀ q ∈ before, ∃ files, s.scan f q = .ok files) ∧ s.scan f p = .error failure := by
  rw [resolve_of_exist f hexist]
  exact collect_eq_error_iff

/-- Of some inputs, a path is the first one that does not exist. -/
def FirstMissing (s : FileSystem) (inputs : List Path) (p : Path) : Prop :=
  s.exists? p = false ∧
    ∃ before after, inputs = before ++ p :: after ∧ ∀ q ∈ before, s.exists? q = true

theorem firstMissing_iff :
    s.FirstMissing inputs p ↔ inputs.find? (fun p => !s.exists? p) = some p := by
  rw [List.find?_eq_some_iff_append, FirstMissing]
  simp only [Bool.not_eq_true', Bool.not_not]

/-- The input that is reported as missing is the first one. A directory that is not listed is
reported otherwise. -/
theorem resolve_eq_pathNotFound_iff :
    s.resolve f inputs = .error (.pathNotFound p) ↔ s.FirstMissing inputs p := by
  rw [firstMissing_iff]
  cases hfind : inputs.find? fun p => !s.exists? p with
  | some q => simp [resolve, hfind]
  | none =>
    have hexist : ∀ p ∈ inputs, s.exists? p = true := by simpa using hfind
    refine iff_of_false ?_ nofun
    rw [resolve_eq_error_iff_of_exist hexist]
    rintro ⟨before, q, after, rfl, -, hscan⟩
    -- all inputs exist, so that the failure of a scan comes from a directory
    obtain ⟨hmissing, -⟩ | ⟨-, l, fault, -, -, hfault⟩ := eq_of_scan_eq_error hscan
    · rw [hexist q (by simp)] at hmissing
      cases hmissing
    · cases hfault

/-! ## The same inputs -/

/-- Two results hold the same candidates, maybe in another order, or both of them are failures. -/
inductive SameCandidates : Except Failure (List Path) → Except Failure (List Path) → Prop
  | ok {candidates candidates' : List Path} (h : candidates.Perm candidates') :
    SameCandidates (.ok candidates) (.ok candidates')
  | error {failure failure' : Failure} : SameCandidates (.error failure) (.error failure')

/-- Inputs hold the same candidates if for each of them there is another one that stands for what it
stands for. -/
theorem sameCandidates_of_scans {xs ys : List Path}
    (hxs : ∀ p ∈ xs, ∃ q ∈ ys, s.scan f p = s.scan f q)
    (hys : ∀ q ∈ ys, ∃ p ∈ xs, s.scan f q = s.scan f p) :
    SameCandidates (s.resolve f xs) (s.resolve f ys) := by
  -- if all scans of one list succeed, then so do those of the other one
  have hscans : ∀ {xs ys : List Path} {candidates : List Path},
      (∀ q ∈ ys, ∃ p ∈ xs, s.scan f q = s.scan f p) → s.resolve f xs = .ok candidates →
      ∃ candidates', s.resolve f ys = .ok candidates' := by
    intro xs ys candidates hys hok
    refine ⟨_, resolve_eq_ok_iff.mpr ⟨fun q hq => ?_, rfl⟩⟩
    obtain ⟨p, hp, hscan⟩ := hys q hq
    rw [hscan]
    exact (resolve_eq_ok_iff.mp hok).1 p hp
  cases hx : s.resolve f xs with
  | error failure =>
    cases hy : s.resolve f ys with
    | error failure' => exact .error
    | ok candidates' =>
      obtain ⟨candidates, hok⟩ := hscans hxs hy
      rw [hx] at hok
      cases hok
  | ok candidates =>
    obtain ⟨candidates', hy⟩ := hscans hys hx
    rw [hy]
    -- neither list has repetitions, so it is enough that they have the same members
    refine .ok ?_
    rw [List.perm_ext_iff_of_nodup (nodup_of_resolve_eq_ok hx) (nodup_of_resolve_eq_ok hy)]
    intro a
    rw [mem_iff_of_resolve_eq_ok hx, mem_iff_of_resolve_eq_ok hy]
    constructor
    · rintro ⟨p, hp, ha⟩
      obtain ⟨q, hq, hscan⟩ := hxs p hp
      exact ⟨q, hq, by rwa [found, ← hscan]⟩
    · rintro ⟨q, hq, ha⟩
      obtain ⟨p, hp, hscan⟩ := hys q hq
      exact ⟨p, hp, by rwa [found, ← hscan]⟩

end FileSystem

end MigrationLint
