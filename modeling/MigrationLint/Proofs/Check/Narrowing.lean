import Mathlib
import MigrationLint.Proofs.Check.Locality
import MigrationLint.Proofs.Session.ExitCode
import MigrationLint.Proofs.Settings.Validity

/-!
# Filters only narrow a run

Exclude patterns and the suffix say which entries of directories are left out. More patterns, or a
longer suffix, leave out more of them and do nothing else: an input that is not a directory stays a
candidate. The candidates that stay may change places, since a path that is left out of a directory can
come up again as an input of its own.

* `Checker.accepts_iff`: what is let through, in terms of the settings that a checker is made for;
* `FileSystem.mem_iff_of_resolve`: the candidates of a run, with the filter to decide on entries only;
* `FileSystem.Narrows`, `Checker.Narrows`: what narrowing does to candidates and to runs;
* `Checker.filters_only_narrow`: patterns and suffixes narrow runs.
-/

namespace MigrationLint

/-! ## Patterns -/

namespace Glob

/-- The text is a pattern that matches the path. -/
def Covers (pattern : String) (p : Path) : Prop :=
  ∃ g, parse pattern = .ok g ∧ g.accepts p.text = true

/-- The text is a pattern, and it compiles. -/
def Compiles (pattern : String) : Prop :=
  ∃ g, parse pattern = .ok g ∧
    (g.method = .alone ∨ g.method = .together → g.isTooDeep = false)

/-- Patterns compile iff none of those that have to nests too deep. -/
theorem compileFault?_eq_none_iff {gs : List Glob} :
    compileFault? gs = none ↔
      ∀ g ∈ gs, g.method = .alone ∨ g.method = .together → g.isTooDeep = false := by
  unfold compileFault?
  cases hfind : (gs.filter fun g => g.method = .alone).find? isTooDeep with
  | some g =>
    have hdeep := List.find?_some hfind
    obtain ⟨hg, halone⟩ := List.mem_filter.mp (List.mem_of_find?_eq_some hfind)
    -- the pattern that is at fault is one of them
    refine iff_of_false nofun fun h => ?_
    rw [h g hg (.inl (of_decide_eq_true halone))] at hdeep
    nomatch hdeep
  | none =>
    -- those that are compiled alone are in order, which leaves those that are compiled together
    simp only [List.find?_eq_none, List.mem_filter, decide_eq_true_eq, and_imp] at hfind
    simp only [Option.map_eq_none_iff, List.findIdx?_eq_none_iff, List.mem_filter,
      decide_eq_true_eq, and_imp]
    constructor
    · rintro h g hg (halone | htogether)
      · simpa using hfind g hg halone
      · exact h g hg htogether
    · exact fun h g hg htogether => h g hg (.inr htogether)

/-- The patterns that are read are those of the texts. -/
theorem mem_iff_of_parseAll {patterns : List String} {globs : List Glob}
    (h : parseAll patterns = .ok globs) {g : Glob} :
    g ∈ globs ↔ ∃ p ∈ patterns, parse p = .ok g := by
  induction patterns generalizing globs with
  | nil =>
    obtain rfl := Except.ok.inj h
    simp
  | cons p patterns ih =>
    rw [parseAll] at h
    cases hp : parse p with
    | error fault => simp [hp] at h
    | ok g' =>
      cases hrest : parseAll patterns with
      | error f => simp [hp, hrest, Except.map] at h
      | ok rest =>
        obtain rfl : g' :: rest = globs := by simpa [hp, hrest, Except.map] using h
        rw [List.mem_cons, ih hrest]
        simp [hp, eq_comm]

end Glob

/-- The path ends in a name that ends in the suffix. -/
def Path.HasSuffix (p : Path) (suffix : String) : Prop :=
  ∃ name, p.fileName? = some name ∧ suffix.toList <:+ name.toList

/-- A path with a longer suffix has the shorter one. -/
theorem Path.HasSuffix.of_append {p : Path} {front suffix : String}
    (h : p.HasSuffix (front ++ suffix)) : p.HasSuffix suffix := by
  obtain ⟨name, hname, hsuffix⟩ := h
  rw [String.toList_append] at hsuffix
  exact ⟨name, hname, (List.suffix_append _ _).trans hsuffix⟩

/-- The filter looks at the suffix of the name that a path ends in. -/
theorem EntryFilter.hasSuffix_iff {f : EntryFilter} {p : Path} :
    f.hasSuffix p = true ↔ p.HasSuffix f.suffix := by
  rw [hasSuffix, Path.HasSuffix, Option.any_eq_true]
  simp only [List.isSuffixOf_iff_suffix]

namespace Checker

section Settings

variable {parser : SourceParser} {settings : Settings} {jobs : Option Nat} {c : Checker}

/-- There is a checker for settings iff each exclude pattern compiles. -/
theorem exists_ofSettings_iff :
    (∃ c, ofSettings parser settings jobs = .ok c) ↔ ∀ p ∈ settings.exclude, Glob.Compiles p := by
  simp only [World.ofSettings_eq_ok_iff, Glob.compileFault?_eq_none_iff]
  constructor
  · rintro ⟨c, globs, hparse, hcompile, -⟩ p hp
    obtain ⟨g, hg⟩ := (Glob.exists_parseAll_eq_ok_iff _).mp ⟨globs, hparse⟩ p hp
    exact ⟨g, hg, hcompile g ((Glob.mem_iff_of_parseAll hparse).mpr ⟨p, hp, hg⟩)⟩
  · intro h
    have hpatterns : ∀ p ∈ settings.exclude, ∃ g, Glob.parse p = .ok g := fun p hp =>
      (h p hp).imp fun g hg => hg.1
    obtain ⟨globs, hparse⟩ := (Glob.exists_parseAll_eq_ok_iff _).mpr hpatterns
    refine ⟨_, globs, hparse, fun g hg => ?_, rfl⟩
    -- each of the patterns has been read from one of the texts
    obtain ⟨p, hp, hread⟩ := (Glob.mem_iff_of_parseAll hparse).mp hg
    obtain ⟨g', hread', hcompile⟩ := h p hp
    obtain rfl : g = g' := Except.ok.inj (hread.symm.trans hread')
    exact hcompile

/-- An entry is let through iff its name has the suffix and no pattern matches its path. -/
theorem accepts_iff (h : ofSettings parser settings jobs = .ok c) {q : Path} :
    c.filter.accepts q = true ↔
      q.HasSuffix settings.suffix ∧ ∀ p ∈ settings.exclude, ¬Glob.Covers p q := by
  obtain ⟨globs, hparse, -, rfl⟩ := World.ofSettings_eq_ok_iff.mp h
  have hexcludes : globs.any (fun g => g.accepts q.text) = true ↔
      ∃ p ∈ settings.exclude, Glob.Covers p q := by
    rw [List.any_eq_true]
    constructor
    · rintro ⟨g, hg, haccepts⟩
      obtain ⟨p, hp, hread⟩ := (Glob.mem_iff_of_parseAll hparse).mp hg
      exact ⟨p, hp, g, hread, haccepts⟩
    · rintro ⟨p, hp, g, hread, haccepts⟩
      exact ⟨g, (Glob.mem_iff_of_parseAll hparse).mpr ⟨p, hp, hread⟩, haccepts⟩
  rw [EntryFilter.accepts, Bool.and_eq_true, EntryFilter.hasSuffix_iff, EntryFilter.excludes,
    Bool.not_eq_true', ← Bool.not_eq_true, hexcludes]
  simp only [not_exists, not_and]

end Settings

end Checker

/-! ## Candidates -/

namespace FileSystem

/-- Of all candidates some are dropped: entries of directories that are of a certain kind. -/
structure Narrowed (s : FileSystem) (inputs : List Path) (drops : Path → Prop)
    (all fewer : List Path) : Prop where
  subset : fewer ⊆ all
  /-- An input that is not a directory stays. -/
  explicit : ∀ q, s.Explicit inputs q → q ∈ fewer
  /-- Only entries of directories are dropped. -/
  entry : ∀ q ∈ all, q ∉ fewer → s.Entry inputs q
  /-- What is of the kind is dropped, unless it is also an input of its own. -/
  dropped : ∀ q ∈ all, q ∉ fewer ↔ drops q ∧ ¬s.Explicit inputs q

/-- Inputs cannot be resolved in the first place, or fewer candidates are left when entries of a
certain kind are dropped. -/
inductive Narrows (s : FileSystem) (inputs : List Path) (drops : Path → Prop) :
    Except Failure (List Path) → Except Failure (List Path) → Prop
  | unresolved (failure : Failure) : Narrows s inputs drops (.error failure) (.error failure)
  | resolved {all fewer : List Path} (h : s.Narrowed inputs drops all fewer) :
    Narrows s inputs drops (.ok all) (.ok fewer)

variable {F : Type} [PathFilter F] {s : FileSystem} {f g : F} {inputs candidates : List Path}

/-! ## Two filters -/

/-- The filter has no say in whether an input can be scanned. -/
theorem scan_eq_error_iff (f g : F) {p : Path} {failure : Failure} :
    s.scan f p = .error failure ↔ s.scan g p = .error failure := by
  unfold scan
  split
  · split
    · split <;> simp
    · simp
  · rfl

/-- The filter has no say in whether inputs can be resolved. -/
theorem resolve_eq_error_iff (f g : F) {failure : Failure} :
    s.resolve f inputs = .error failure ↔ s.resolve g inputs = .error failure := by
  rw [resolve, resolve]
  split
  · rfl
  · -- the same inputs can be scanned, and the others fail for the same reasons
    rw [collect_eq_error_iff, collect_eq_error_iff]
    simp only [exists_scan_iff, scan_eq_error_iff f g]

section Congruence

variable (h : ∀ q, PathFilter.accepts f q = PathFilter.accepts g q)
include h

/-- Filters that let through the same paths find the same. -/
theorem scan_congr (p : Path) : s.scan f p = s.scan g p := by
  unfold scan
  rw [funext h]

/-- What is collected through such filters is the same. -/
theorem collect_congr (found : List Path) :
    s.collect f found inputs = s.collect g found inputs := by
  -- each scan finds the same, so that the next one starts with the same
  induction inputs generalizing found with
  | nil => rfl
  | cons p inputs ih =>
    rw [collect, collect, scan_congr h]
    split
    · rfl
    · exact ih _

/-- Filters that let through the same paths are not told apart. -/
theorem resolve_congr : s.resolve f inputs = s.resolve g inputs := by
  rw [resolve, resolve, collect_congr h]

end Congruence

/-- A filter that lets through what another one does, but for entries of a certain kind, narrows what
inputs resolve to. -/
theorem narrows_of_accepts {drops : Path → Prop}
    (h : ∀ q, PathFilter.accepts g q = true ↔ PathFilter.accepts f q = true ∧ ¬drops q) :
    s.Narrows inputs drops (s.resolve f inputs) (s.resolve g inputs) := by
  cases hf : s.resolve f inputs with
  | error failure =>
    rw [(resolve_eq_error_iff f g).mp hf]
    exact .unresolved failure
  | ok all =>
    cases hg : s.resolve g inputs with
    | error failure =>
      rw [(resolve_eq_error_iff g f).mp hg] at hf
      nomatch hf
    | ok fewer =>
      have hall : ∀ q, q ∈ all ↔ s.Explicit inputs q ∨
          s.Entry inputs q ∧ PathFilter.accepts f q = true := fun q => mem_iff_of_resolve hf
      have hfewer : ∀ q, q ∈ fewer ↔ s.Explicit inputs q ∨
          s.Entry inputs q ∧ PathFilter.accepts f q = true ∧ ¬drops q := by
        intro q
        rw [mem_iff_of_resolve hg, h]
      refine .resolved ⟨?subset, fun q hq => (hfewer q).mpr (.inl hq), ?entry, ?dropped⟩
      case subset =>
        intro q hq
        rcases (hfewer q).mp hq with hexplicit | ⟨hentry, haccepts, -⟩
        · exact (hall q).mpr (.inl hexplicit)
        · exact (hall q).mpr (.inr ⟨hentry, haccepts⟩)
      case entry =>
        intro q hq hout
        rcases (hall q).mp hq with hexplicit | ⟨hentry, -⟩
        · exact absurd ((hfewer q).mpr (.inl hexplicit)) hout
        · exact hentry
      case dropped =>
        intro q hq
        -- an entry that is let through is left out only if it is of the kind
        have hentry := (hall q).mp hq
        rw [hfewer]
        tauto

end FileSystem

/-! ## Runs -/

namespace Checker

section Runs

variable {F : Type} [PathFilter F] {c c' : Checker F} {s : FileSystem} {inputs : List Path}
variable {drops : Path → Prop} {r r' : Record}

/-- With the second checker, a run has the candidates that it has with the first one, but for entries
of a certain kind. It has no more failures, and if it is not a success any more, there is nothing left
to check. -/
structure Narrows (s : FileSystem) (inputs : List Path) (drops : Path → Prop) (c c' : Checker F) :
    Prop where
  resolve : s.Narrows inputs drops (s.resolve c.filter inputs) (s.resolve c'.filter inputs)
  errors : ∀ r r', c.EndsIn s inputs r → c'.EndsIn s inputs r' →
    r'.summary.errorsCount ≤ r.summary.errorsCount
  exitCode : ∀ r r', c.EndsIn s inputs r → c'.EndsIn s inputs r' → r.exitCode = 0 →
    r'.exitCode = 1 → r'.report.abort = some .noMigrations

/-- Narrowing leaves some of the candidates. -/
theorem candidates_subset_of_narrows
    (h : s.Narrows inputs drops (s.resolve c.filter inputs) (s.resolve c'.filter inputs)) :
    c'.candidates s inputs ⊆ c.candidates s inputs := by
  unfold candidates
  generalize s.resolve c.filter inputs = all at h
  generalize s.resolve c'.filter inputs = fewer at h
  cases h with
  | unresolved failure => exact List.Subset.refl _
  | resolved h => exact h.subset

/-- Fewer candidates do not have more failures. -/
theorem Ends.errorsCount_le (hmethod : c'.method = c.method) (hparser : c'.parser = c.parser)
    (hcandidates : c'.candidates s inputs ⊆ c.candidates s inputs)
    (h : c.Ends s inputs r) (h' : c'.Ends s inputs r') :
    r'.summary.errorsCount ≤ r.summary.errorsCount := by
  rw [h.accounts.tallied.errors, h'.accounts.tallied.errors, h.outcomes_eq, h'.outcomes_eq,
    hmethod, hparser, List.countP_map, List.countP_map]
  -- no candidate is there twice, so that none counts more often than before
  exact (List.subperm_of_subset (nodup_candidates c' s inputs) hcandidates).countP_le _

/-- A run that is a success stays one with fewer candidates, if there are any. -/
theorem Ends.exitCode_eq_zero
    (hresolve : s.Narrows inputs drops (s.resolve c.filter inputs) (s.resolve c'.filter inputs))
    (h : c.Ends s inputs r) (h' : c'.Ends s inputs r')
    (herrors : r'.summary.errorsCount ≤ r.summary.errorsCount) (hsuccess : r.exitCode = 0) :
    r'.exitCode = 0 ∨ r'.report.abort = some .noMigrations := by
  obtain ⟨hfiles, hnone⟩ := h.accounts.tallied.exitCode.mp hsuccess
  cases h' with
  | empty hempty => exact .inr rfl
  | checked hfewer hsome =>
    have haccounts := accounts_of_checked hfewer hsome
    refine .inl (haccounts.tallied.exitCode.mpr ⟨?_, ?_⟩)
    · exact List.length_pos_of_ne_nil (mt List.map_eq_nil_iff.mp hsome)
    · omega
  | unresolved hfailure =>
    -- a run that checks nothing would not have been a success
    rw [hfailure] at hresolve
    cases h with
    | unresolved => nomatch hfiles
    | empty => nomatch hfiles
    | checked hall =>
      rw [hall] at hresolve
      nomatch hresolve

/-- Apart from its filter, a checker has to be the same for its runs to be narrowed. -/
theorem narrows_of_accepts (hmethod : c'.method = c.method) (hparser : c'.parser = c.parser)
    (haccepts : ∀ q, PathFilter.accepts c'.filter q = true ↔
      PathFilter.accepts c.filter q = true ∧ ¬drops q) : c.Narrows s inputs drops c' := by
  have hresolve : s.Narrows inputs drops (s.resolve c.filter inputs) (s.resolve c'.filter inputs) :=
    FileSystem.narrows_of_accepts haccepts
  have herrors : ∀ r r', c.EndsIn s inputs r → c'.EndsIn s inputs r' →
      r'.summary.errorsCount ≤ r.summary.errorsCount := fun r r' h h' =>
    h.ends.errorsCount_le hmethod hparser (candidates_subset_of_narrows hresolve) h'.ends
  refine ⟨hresolve, herrors, fun r r' h h' hsuccess hfailure => ?_⟩
  rcases h.ends.exitCode_eq_zero hresolve h'.ends (herrors r r' h h') hsuccess with hzero | habort
  · rw [hzero] at hfailure
    nomatch hfailure
  · exact habort

end Runs

/-! ## Settings -/

section Settings

variable {parser : SourceParser} {settings : Settings} {jobs : Option Nat} {c c' : Checker}
variable {s : FileSystem} {inputs : List Path}

theorem method_eq_of_ofSettings (h : ofSettings parser settings jobs = .ok c) :
    c.method = settings.method := by
  obtain ⟨globs, -, -, rfl⟩ := World.ofSettings_eq_ok_iff.mp h
  rfl

theorem parser_eq_of_ofSettings (h : ofSettings parser settings jobs = .ok c) :
    c.parser = parser := by
  obtain ⟨globs, -, -, rfl⟩ := World.ofSettings_eq_ok_iff.mp h
  rfl

/-- Settings that differ in suffix and patterns narrow runs if less is let through with them. -/
theorem exists_narrows (h : ofSettings parser settings jobs = .ok c) (settings' : Settings)
    (hmethod : settings'.method = settings.method)
    (hcompile : ∀ p ∈ settings'.exclude, Glob.Compiles p) {drops : Path → Prop}
    (haccepts : ∀ q, (q.HasSuffix settings'.suffix ∧ ∀ p ∈ settings'.exclude, ¬Glob.Covers p q) ↔
      (q.HasSuffix settings.suffix ∧ ∀ p ∈ settings.exclude, ¬Glob.Covers p q) ∧ ¬drops q) :
    ∃ c', ofSettings parser settings' jobs = .ok c' ∧ c.Narrows s inputs drops c' := by
  obtain ⟨c', h'⟩ := exists_ofSettings_iff.mpr hcompile
  refine ⟨c', h', narrows_of_accepts ?_ ?_ fun q => ?_⟩
  · rw [method_eq_of_ofSettings h, method_eq_of_ofSettings h', hmethod]
  · rw [parser_eq_of_ofSettings h, parser_eq_of_ofSettings h']
  · exact (accepts_iff h').trans ((haccepts q).trans (and_congr_left' (accepts_iff h).symm))

/-- More patterns narrow runs. -/
theorem exists_narrows_of_exclude (h : ofSettings parser settings jobs = .ok c)
    {more : List String} (hmore : ∀ p ∈ more, Glob.Compiles p) :
    ∃ c', ofSettings parser { settings with exclude := settings.exclude ++ more } jobs = .ok c' ∧
      c.Narrows s inputs (fun q => ∃ p ∈ more, Glob.Covers p q) c' := by
  have hcompile : ∀ p ∈ settings.exclude ++ more, Glob.Compiles p :=
    List.forall_mem_append.mpr ⟨exists_ofSettings_iff.mp ⟨c, h⟩, hmore⟩
  apply exists_narrows h { settings with exclude := settings.exclude ++ more } rfl hcompile
  intro q
  simp only [List.forall_mem_append, not_exists, not_and, and_assoc]

/-- A longer suffix narrows runs. -/
theorem exists_narrows_of_suffix (h : ofSettings parser settings jobs = .ok c) (front : String) :
    ∃ c', ofSettings parser { settings with suffix := front ++ settings.suffix } jobs = .ok c' ∧
      c.Narrows s inputs (fun q => ¬q.HasSuffix (front ++ settings.suffix)) c' := by
  have hcompile := exists_ofSettings_iff.mp ⟨c, h⟩
  apply exists_narrows h { settings with suffix := front ++ settings.suffix } rfl hcompile
  intro q
  -- a name with the longer suffix has the shorter one too
  have hshorter : q.HasSuffix (front ++ settings.suffix) → q.HasSuffix settings.suffix :=
    Path.HasSuffix.of_append
  tauto

/-- Neither the order of the patterns matters nor how often each of them is given. -/
theorem exists_resolve_eq (h : ofSettings parser settings jobs = .ok c) {exclude : List String}
    (hsame : ∀ p, p ∈ exclude ↔ p ∈ settings.exclude) :
    ∃ c', ofSettings parser { settings with exclude := exclude } jobs = .ok c' ∧
      s.resolve c'.filter inputs = s.resolve c.filter inputs := by
  have hcompile : ∀ p ∈ ({ settings with exclude := exclude } : Settings).exclude,
      Glob.Compiles p := fun p hp => exists_ofSettings_iff.mp ⟨c, h⟩ p ((hsame p).mp hp)
  obtain ⟨c', h'⟩ := exists_ofSettings_iff.mpr hcompile
  refine ⟨c', h', FileSystem.resolve_congr fun q => ?_⟩
  have haccepts : c'.filter.accepts q = true ↔ c.filter.accepts q = true := by
    rw [accepts_iff h', accepts_iff h]
    simp only [hsame]
  exact Bool.eq_iff_iff.mpr haccepts

/-- An entry that is a candidate is covered by no pattern. -/
theorem explicit_or_not_covers (h : ofSettings parser settings jobs = .ok c) {q : Path}
    (hq : q ∈ c.candidates s inputs) :
    s.Explicit inputs q ∨ ∀ p ∈ settings.exclude, ¬Glob.Covers p q := by
  unfold candidates at hq
  cases hresolve : s.resolve c.filter inputs with
  | error failure =>
    rw [hresolve] at hq
    nomatch hq
  | ok candidates =>
    rw [hresolve] at hq
    rcases (FileSystem.mem_iff_of_resolve hresolve).mp hq with hexplicit | ⟨-, haccepts⟩
    · exact .inl hexplicit
    · exact .inr ((accepts_iff h).mp haccepts).2

/-- Patterns from the command line come after those of the settings and bring no entry back. -/
theorem exists_narrows_of_override (h : ofSettings parser settings jobs = .ok c) {o : CheckOptions}
    (hmore : ∀ p ∈ o.exclude, Glob.Compiles p) :
    ∃ c₀ c', ofSettings parser (settings.override { o with exclude := [] }) jobs = .ok c₀ ∧
      ofSettings parser (settings.override o) jobs = .ok c' ∧
      c₀.Narrows s inputs (fun q => ∃ p ∈ o.exclude, Glob.Covers p q) c' ∧
      ∀ q ∈ c'.candidates s inputs,
        s.Explicit inputs q ∨ ∀ p ∈ settings.exclude ++ o.exclude, ¬Glob.Covers p q := by
  have hbase : ∀ p ∈ (settings.override { o with exclude := [] }).exclude, Glob.Compiles p :=
    List.forall_mem_append.mpr ⟨exists_ofSettings_iff.mp ⟨c, h⟩, List.forall_mem_nil _⟩
  obtain ⟨c₀, h₀⟩ := exists_ofSettings_iff.mpr hbase
  obtain ⟨c', h', hnarrows⟩ := exists_narrows_of_exclude h₀ hmore
  -- the patterns from the command line come last, as if they had been added to the others
  have hoverride : { settings.override { o with exclude := [] } with
      exclude := (settings.override { o with exclude := [] }).exclude ++ o.exclude } =
      settings.override o := by
    simp [Settings.override]
  rw [hoverride] at h'
  exact ⟨c₀, c', h₀, h', hnarrows, fun q => explicit_or_not_covers h'⟩

/-- More exclude patterns narrow a run, and so does a longer suffix. It does not matter in which order
patterns are given and how often. Those from the command line only add to those of the settings. -/
theorem filters_only_narrow {parser : SourceParser} {settings : Settings} {jobs : Option Nat}
    {c : Checker} (h : ofSettings parser settings jobs = .ok c) (s : FileSystem)
    (inputs : List Path) :
    (∀ more, (∃ c₂, ofSettings parser { settings with exclude := more } jobs = .ok c₂) →
      ∃ c', ofSettings parser { settings with exclude := settings.exclude ++ more } jobs = .ok c' ∧
        c.Narrows s inputs (fun q => ∃ p ∈ more, Glob.Covers p q) c') ∧
    (∀ exclude, (∀ p, p ∈ exclude ↔ p ∈ settings.exclude) →
      ∃ c', ofSettings parser { settings with exclude := exclude } jobs = .ok c' ∧
        s.resolve c'.filter inputs = s.resolve c.filter inputs) ∧
    (∀ front,
      ∃ c', ofSettings parser { settings with suffix := front ++ settings.suffix } jobs = .ok c' ∧
        c.Narrows s inputs (fun q => ¬q.HasSuffix (front ++ settings.suffix)) c') ∧
    ∀ o : CheckOptions,
      (∃ c₂, ofSettings parser { settings with exclude := o.exclude } jobs = .ok c₂) →
      ∃ c₀ c', ofSettings parser (settings.override { o with exclude := [] }) jobs = .ok c₀ ∧
        ofSettings parser (settings.override o) jobs = .ok c' ∧
        c₀.Narrows s inputs (fun q => ∃ p ∈ o.exclude, Glob.Covers p q) c' ∧
        ∀ q ∈ c'.candidates s inputs,
          s.Explicit inputs q ∨ ∀ p ∈ settings.exclude ++ o.exclude, ¬Glob.Covers p q := by
  refine ⟨fun more hmore => ?_, fun exclude => exists_resolve_eq h,
    exists_narrows_of_suffix h, fun o hmore => ?_⟩
  · exact exists_narrows_of_exclude h (exists_ofSettings_iff.mp hmore)
  · exact exists_narrows_of_override h (exists_ofSettings_iff.mp hmore)

end Settings

end Checker

/-- Of a directory that is left out altogether, the file that is an input of its own stays. -/
theorem mixedSystem_filters_only_narrow :
    ∃ c c', Checker.ofSettings rejectsEmpty.parser {} none = .ok c ∧
      Checker.ofSettings rejectsEmpty.parser { exclude := ["db/*"] } none = .ok c' ∧
      c.Narrows mixedSystem [⟨"db"⟩, ⟨"db/b.php"⟩]
        (fun q => ∃ p ∈ ["db/*"], Glob.Covers p q) c' ∧
      c.candidates mixedSystem [⟨"db"⟩, ⟨"db/b.php"⟩] =
        [⟨"db/a.php"⟩, ⟨"db/b.php"⟩, ⟨"db/c.php"⟩, ⟨"db/d.php"⟩] ∧
      c'.candidates mixedSystem [⟨"db"⟩, ⟨"db/b.php"⟩] = [⟨"db/b.php"⟩] := by
  have hall : Checker.ofSettings rejectsEmpty.parser {} none = .ok _ := rfl
  have hparse : Glob.parse "db/*" =
      .ok ⟨"db/*", [.literal 'd', .literal 'b', .literal '/', .anyBytes]⟩ := by cbv
  have hpatterns : Glob.parseAll ["db/*"] =
      .ok [⟨"db/*", [.literal 'd', .literal 'b', .literal '/', .anyBytes]⟩] := by
    rw [Glob.parseAll, hparse]
    rfl
  have hfewer : Checker.ofSettings rejectsEmpty.parser { exclude := ["db/*"] } none = .ok _ :=
    World.ofSettings_eq_ok_iff.mpr ⟨_, hpatterns, by decide, rfl⟩
  obtain ⟨c', h', hnarrows⟩ :=
    (Checker.filters_only_narrow hall mixedSystem [⟨"db"⟩, ⟨"db/b.php"⟩]).1 ["db/*"] ⟨_, hfewer⟩
  obtain rfl := Except.ok.inj (h'.symm.trans hfewer)
  exact ⟨_, _, hall, hfewer, hnarrows, by decide +kernel, by decide +kernel⟩

end MigrationLint
