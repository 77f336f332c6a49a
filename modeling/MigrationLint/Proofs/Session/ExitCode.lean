import MigrationLint.Proofs.Check.Run
import MigrationLint.Proofs.Glob.Nesting
import MigrationLint.Proofs.Php.Verdict
import MigrationLint.Proofs.Text.Utf8
import MigrationLint.Session.Commands

/-!
# The exit code of a check

A check ends in exit code zero iff everything that it looks at is in order, from its settings to the
file that it writes, and in exit code one otherwise. So no failure goes unnoticed.

* `World.InOrder`: what a check looks at is in order;
* `World.check_exitCode`: the exit code in these terms;
* `World.not_exitCode_eq_zero_iff_inOrder`: well-formed exclude patterns are not enough, they must
  compile.
-/

namespace MigrationLint

/-! ## Writing files -/

/-- Something can be written to a path. -/
def FileTree.CanWrite (t : FileTree) (p : Path) : Prop :=
  ∃ content u, t.write p content = .ok u

/-- Whether a file can be written does not depend on what is written. -/
theorem FileTree.canWrite_iff {t : FileTree} {p : Path} (content : Utf8.Bytes) :
    t.CanWrite p ↔ ∃ u, t.write p content = .ok u := by
  refine ⟨fun ⟨content', u, hwrite⟩ => ?_, fun ⟨u, hwrite⟩ => ⟨content, u, hwrite⟩⟩
  rw [write] at hwrite ⊢
  -- the destination decides, and it is found before the content is looked at
  cases hdestination : t.destination .write p with
  | error fault => simp [hdestination, bind, Except.bind] at hwrite
  | ok d =>
    simp only [hdestination, bind, Except.bind] at hwrite ⊢
    split <;> simp_all

namespace World

/-! ## What a check looks at -/

/-- What a check looks at is in order: its settings, which have the given patterns, its inputs, all
candidates, and the file that the report is written to. -/
structure InOrder (w : World) (common : CommonOptions) (o : CheckOptions) (s : Settings)
    (globs : List Glob) : Prop where
  /-- The settings can be loaded. -/
  loaded : ∃ l, w.loadSettings o.config common.noConfig = .ok l ∧ l.settings.override o = s
  /-- The settings are usable. -/
  usable : s.validate = .ok ()
  /-- The exclude patterns are well formed. -/
  patterns : Glob.parseAll s.exclude = .ok globs
  /-- All inputs exist. -/
  inputs : ∀ p ∈ o.paths, w.tree.exists? p = true
  /-- All directories among the inputs can be listed. -/
  listed : ∀ p ∈ o.paths, ∀ l, w.tree.directory? p = some l → w.tree.fault? l = none
  /-- There is a candidate. -/
  candidate : ∃ p, Candidate w.tree ⟨s.suffix, globs⟩ o.paths p
  /-- Every candidate is a file that passes. -/
  compliant : ∀ p, Candidate w.tree ⟨s.suffix, globs⟩ o.paths p →
    Compliant w.tree w.parser s.method p
  /-- The report can be written to the file that is meant for it. -/
  output : ∀ p, o.output = some p → w.tree.CanWrite p

/-- Settings can be used for a check iff they are usable together with the command line. -/
theorem settingsFor_eq_ok_iff {l : LoadedSettings} {o : CheckOptions} {s : Settings} :
    settingsFor l o = .ok s ↔ l.settings.override o = s ∧ s.validate = .ok () := by
  rw [settingsFor]
  constructor
  · intro h
    cases hvalid : (l.settings.override o).validate with
    | error failure => simp [hvalid, Except.map] at h
    | ok _ =>
      obtain rfl : l.settings.override o = s := by simpa [hvalid, Except.map] using h
      exact ⟨rfl, hvalid⟩
  · rintro ⟨rfl, hvalid⟩
    simp [hvalid, Except.map]

/-- There is a checker for settings iff their exclude patterns are well formed and compile. -/
theorem ofSettings_eq_ok_iff {parser : SourceParser} {s : Settings} {jobs : Option Nat}
    {c : Checker} :
    Checker.ofSettings parser s jobs = .ok c ↔
      ∃ globs, Glob.parseAll s.exclude = .ok globs ∧ Glob.compileFault? globs = none ∧
        ⟨⟨s.suffix, globs⟩, s.method, parser, s.parallel && jobs != some 1⟩ = c := by
  rw [Checker.ofSettings, EntryFilter.ofTexts]
  cases Glob.parseAll s.exclude with
  | error failure => simp [bind, Except.bind, Except.map]
  | ok globs =>
    simp only [bind, Except.bind, Except.ok.injEq, exists_eq_left']
    cases Glob.compileFault? globs <;> simp [Except.map]

/-- A check that has come to a report ends in exit code zero iff the report does and can be written
to the file that is meant for it. -/
theorem conclude_exitCode_eq_zero_iff {w : World} {common : CommonOptions} {o : CheckOptions}
    {notices : List Notice} {r : Report} {text : String} :
    (w.conclude common o notices r text).exitCode = 0 ↔
      r.exitCode = 0 ∧ ∀ p, o.output = some p → w.tree.CanWrite p := by
  rw [conclude]
  cases o.output with
  | none => simp
  | some p =>
    simp only [Option.some.injEq, forall_eq', FileTree.canWrite_iff (Utf8.encode text.toList)]
    cases hwrite : w.tree.writeText p text with
    | error fault =>
      rw [FileTree.writeText] at hwrite
      simp [hwrite, failed]
    | ok t =>
      rw [FileTree.writeText] at hwrite
      simp [hwrite]

/-- A check that has come to a report ends in exit code zero or one. -/
theorem conclude_exitCode_eq_zero_or_one (w : World) (common : CommonOptions) (o : CheckOptions)
    (notices : List Notice) (r : Report) (text : String) :
    (w.conclude common o notices r text).exitCode = 0 ∨
      (w.conclude common o notices r text).exitCode = 1 := by
  rw [conclude]
  split
  · exact r.exitCode_eq_zero_or_one
  · split
    · exact .inr rfl
    · exact r.exitCode_eq_zero_or_one

/-! ## The exit code -/

/-- A check starts with given settings and a given checker. -/
def Starts (w : World) (common : CommonOptions) (o : CheckOptions) (s : Settings) (c : Checker) :
    Prop :=
  ∃ l, w.loadSettings o.config common.noConfig = .ok l ∧ settingsFor l o = .ok s ∧
    Checker.ofSettings w.parser s (workers o.jobs) = .ok c

/-- A check that starts comes to the report of a run. -/
theorem Starts.check_eq_conclude {w : World} {common : CommonOptions} {o : CheckOptions}
    {s : Settings} {c : Checker} (h : w.Starts common o s c) :
    ∃ notices text, w.check common o = w.conclude common o notices (c.run w.tree o.paths) text := by
  obtain ⟨l, hloaded, hsettings, hchecker⟩ := h
  rw [check]
  simp only [hloaded, hsettings, hchecker]
  exact ⟨_, _, rfl⟩

/-- A check that does not start fails. -/
theorem check_eq_failed_of_not_starts {w : World} {common : CommonOptions} {o : CheckOptions}
    (h : ∀ s c, ¬w.Starts common o s c) :
    ∃ notices f, w.check common o = w.failed common.colour notices f := by
  rw [check]
  cases hloaded : w.loadSettings o.config common.noConfig with
  | error f => exact ⟨_, f, rfl⟩
  | ok l =>
    cases hsettings : settingsFor l o with
    | error f => simp only [hsettings]; exact ⟨_, f, rfl⟩
    | ok s =>
      cases hchecker : Checker.ofSettings w.parser s (workers o.jobs) with
      | error f => simp only [hsettings, hchecker]; exact ⟨_, f, rfl⟩
      | ok c => exact absurd ⟨l, hloaded, hsettings, hchecker⟩ (h s c)

/-- A check that does not start ends in exit code one. -/
theorem check_exitCode_of_not_starts {w : World} {common : CommonOptions} {o : CheckOptions}
    (h : ∀ s c, ¬w.Starts common o s c) : (w.check common o).exitCode = 1 := by
  obtain ⟨notices, f, hcheck⟩ := check_eq_failed_of_not_starts h
  rw [hcheck]
  rfl

/-- A check ends in exit code zero iff what it looks at is in order and the exclude patterns
compile. -/
theorem check_exitCode_eq_zero_iff {w : World} {common : CommonOptions} {o : CheckOptions} :
    (w.check common o).exitCode = 0 ↔
      ∃ s globs, w.InOrder common o s globs ∧ Glob.compileFault? globs = none := by
  constructor
  · intro hzero
    by_cases hstarts : ∃ s c, w.Starts common o s c
    · -- each step that came to a result says what was in order
      obtain ⟨s, c, hstarts⟩ := hstarts
      obtain ⟨notices, text, hcheck⟩ := hstarts.check_eq_conclude
      obtain ⟨l, hloaded, hsettings, hchecker⟩ := hstarts
      obtain ⟨hoverride, hvalid⟩ := settingsFor_eq_ok_iff.mp hsettings
      obtain ⟨globs, hglobs, hcompile, rfl⟩ := ofSettings_eq_ok_iff.mp hchecker
      rw [hcheck, conclude_exitCode_eq_zero_iff, Checker.run_exitCode_eq_zero_iff] at hzero
      obtain ⟨⟨hinputs, hlisted, hcandidate, hcompliant⟩, houtput⟩ := hzero
      exact ⟨s, globs, ⟨⟨l, hloaded, hoverride⟩, hvalid, hglobs, hinputs, hlisted, hcandidate,
        hcompliant, houtput⟩, hcompile⟩
    · have hone : (w.check common o).exitCode = 1 :=
        check_exitCode_of_not_starts fun s c h => hstarts ⟨s, c, h⟩
      omega
  · rintro ⟨s, globs, horder, hcompile⟩
    obtain ⟨l, hloaded, hoverride⟩ := horder.loaded
    have hsettings := settingsFor_eq_ok_iff.mpr ⟨hoverride, horder.usable⟩
    have hchecker : Checker.ofSettings w.parser s (workers o.jobs) = .ok _ :=
      ofSettings_eq_ok_iff.mpr ⟨globs, horder.patterns, hcompile, rfl⟩
    have hstarts : w.Starts common o s _ := ⟨l, hloaded, hsettings, hchecker⟩
    obtain ⟨notices, text, hcheck⟩ := hstarts.check_eq_conclude
    rw [hcheck, conclude_exitCode_eq_zero_iff, Checker.run_exitCode_eq_zero_iff]
    exact ⟨⟨horder.inputs, horder.listed, horder.candidate, horder.compliant⟩, horder.output⟩

/-- A check ends in exit code zero if what it looks at is in order and the exclude patterns compile,
and in exit code one otherwise. -/
theorem check_exitCode (w : World) (common : CommonOptions) (o : CheckOptions) :
    ((w.check common o).exitCode = 0 ↔
      ∃ s globs, w.InOrder common o s globs ∧ Glob.compileFault? globs = none) ∧
    ((w.check common o).exitCode = 1 ↔
      ¬∃ s globs, w.InOrder common o s globs ∧ Glob.compileFault? globs = none) := by
  rw [← check_exitCode_eq_zero_iff]
  refine ⟨Iff.rfl, ?_⟩
  have hor : (w.check common o).exitCode = 0 ∨ (w.check common o).exitCode = 1 := by
    by_cases hstarts : ∃ s c, w.Starts common o s c
    · obtain ⟨s, c, hstarts⟩ := hstarts
      obtain ⟨notices, text, hcheck⟩ := hstarts.check_eq_conclude
      rw [hcheck]
      exact conclude_exitCode_eq_zero_or_one ..
    · exact .inr (check_exitCode_of_not_starts fun s c h => hstarts ⟨s, c, h⟩)
  omega

end World

/-! ## Exclude patterns that do not compile -/

/-- A world with the sample as its only file. -/
def sampleWorld : World where
  tree := { entries := [(["m.php"], .file (Utf8.encode Php.Cst.sampleText.toList))] }
  environment := {}
  parser := Php.parser Php.Cst.sampleGrammar

/-- Settings with a single exclude pattern, which is well formed but nests too deep. -/
def deepSettings : Settings where
  exclude := [String.ofList (Glob.nestedChars 250)]

/-- Options that ask for the sample to be checked with these settings. -/
def deepOptions : CheckOptions where
  paths := [⟨"m.php"⟩]
  exclude := deepSettings.exclude

/-- Options that ask for no settings file to be read. -/
def noSettings : CommonOptions where
  noConfig := true

/-- The exclude patterns of `deepSettings` are well formed. -/
theorem parseAll_deepSettings :
    Glob.parseAll deepSettings.exclude = .ok [Glob.nested 250] := by
  rw [deepSettings, Glob.parseAll, Glob.parse_nested]
  rfl

/-- The only file of `sampleWorld` passes. -/
theorem sampleWorld_compliant : Compliant sampleWorld.tree sampleWorld.parser "down" ⟨"m.php"⟩ := by
  obtain ⟨tree, hparse, hpass⟩ := Php.sample_passes
  have hread : sampleWorld.tree.read ⟨"m.php"⟩ = .ok (Utf8.encode Php.Cst.sampleText.toList) := rfl
  refine ⟨by decide, _, tree, hread, ?_, hpass⟩
  rw [Utf8.decodeLossy_encode, String.ofList_toList]
  exact congrArg (Except.mapError Php.Fault.toParseError) hparse

/-- What is looked at when the sample is checked with `deepSettings` is in order. -/
theorem sampleWorld_inOrder :
    sampleWorld.InOrder noSettings deepOptions deepSettings [Glob.nested 250] where
  loaded := ⟨{}, rfl, rfl⟩
  usable := by
    rw [Settings.validate, parseAll_deepSettings]
    rfl
  patterns := parseAll_deepSettings
  inputs := by decide
  listed := fun _ _ _ _ => rfl
  candidate := ⟨⟨"m.php"⟩, .input (by decide) (by decide)⟩
  compliant := by
    rintro _ (⟨hinput, -⟩ | ⟨hinput, hdirectory, -, -⟩)
    · rw [List.mem_singleton.mp hinput]
      exact sampleWorld_compliant
    · rw [List.mem_singleton.mp hinput] at hdirectory
      nomatch hdirectory
  output := by
    intro p hp
    nomatch hp

/-- It is not enough for exit code zero that everything is in order: exclude patterns that are well
formed need not compile. -/
theorem not_exitCode_eq_zero_iff_inOrder :
    ¬((sampleWorld.check noSettings deepOptions).exitCode = 0 ↔
      ∃ s globs, sampleWorld.InOrder noSettings deepOptions s globs) := by
  intro hiff
  have hzero := hiff.mpr ⟨_, _, sampleWorld_inOrder⟩
  obtain ⟨s, globs, horder, hcompile⟩ := World.check_exitCode_eq_zero_iff.mp hzero
  obtain ⟨l, hloaded, hoverride⟩ := horder.loaded
  -- no settings file is read, so there is only one choice for settings and patterns
  obtain rfl : deepSettings = s := by
    obtain rfl : {} = l := Except.ok.inj hloaded
    exact hoverride
  obtain rfl : [Glob.nested 250] = globs :=
    Except.ok.inj (parseAll_deepSettings.symm.trans horder.patterns)
  rw [Glob.compileFault?_nested (by decide)] at hcompile
  nomatch hcompile

end MigrationLint
