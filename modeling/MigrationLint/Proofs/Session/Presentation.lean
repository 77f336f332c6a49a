import MigrationLint.Proofs.Check.Alike
import MigrationLint.Proofs.Session.Frame

/-!
# How a report is presented

Some options and one of the settings only say how a report is presented: how much of it is printed,
in which form and colour, and whether an example follows. They do not reach the run, so two checks
that differ only in them have the same verdict.

* `CheckOptions.SameCheck`: options that differ only in how the report is presented;
* `Settings.SameCheck`: settings that do;
* `SameVerdict`: what two checks come to if they have the same verdict;
* `presentation_keeps_verdict`: checks that differ only in how the report is presented do.
-/

namespace MigrationLint

/-- Options of checks that differ only in the form of the report, in whether an example follows, and
in where settings are looked for. -/
structure CheckOptions.SameCheck (o o' : CheckOptions) : Prop where
  paths : o.paths = o'.paths
  method : o.method = o'.method
  suffix : o.suffix = o'.suffix
  exclude : o.exclude = o'.exclude
  output : o.output = o'.output
  jobs : o.jobs = o'.jobs

/-- Settings that differ only in whether an example follows a report. -/
structure Settings.SameCheck (s s' : Settings) : Prop where
  method : s.method = s'.method
  suffix : s.suffix = s'.suffix
  exclude : s.exclude = s'.exclude
  parallel : s.parallel = s'.parallel

/-- Two checks load settings that differ only in whether an example follows a report, or none for
the same reason. -/
inductive LoadedAlike : Except Failure LoadedSettings → Except Failure LoadedSettings → Prop
  | failed {f : Failure} : LoadedAlike (.error f) (.error f)
  | loaded {l l' : LoadedSettings} (h : l.settings.SameCheck l'.settings) :
      LoadedAlike (.ok l) (.ok l')

/-- Settings are loaded like themselves. -/
theorem LoadedAlike.refl (loaded : Except Failure LoadedSettings) : LoadedAlike loaded loaded := by
  cases loaded with
  | error f => exact .failed
  | ok l => exact .loaded ⟨rfl, rfl, rfl, rfl⟩

/-- Settings that have been loaded are alike if they ask for the same check, wherever they come from.
-/
theorem LoadedAlike.of_toOption {x y : Except Failure LoadedSettings} {l l' : LoadedSettings}
    (hx : x.toOption = some l) (hy : y.toOption = some l')
    (h : l.settings.SameCheck l'.settings) : LoadedAlike x y := by
  cases x with
  | error f => nomatch hx
  | ok m =>
    cases y with
    | error f => nomatch hy
    | ok m' =>
      obtain rfl := Option.some.inj hx
      obtain rfl := Option.some.inj hy
      exact .loaded h

namespace Settings.SameCheck

variable {s s' : Settings}

/-- The same options leave settings the same for a check. -/
theorem override (h : s.SameCheck s') {o o' : CheckOptions} (ho : o.SameCheck o') :
    (s.override o).SameCheck (s'.override o') where
  method := by rw [Settings.override, Settings.override, h.method, ho.method]
  suffix := by rw [Settings.override, Settings.override, h.suffix, ho.suffix]
  exclude := by rw [Settings.override, Settings.override, h.exclude, ho.exclude]
  parallel := h.parallel

/-- Settings that are the same for a check are usable in the same cases. -/
theorem validate (h : s.SameCheck s') : s.validate = s'.validate := by
  rw [Settings.validate, Settings.validate, h.method, h.suffix, h.exclude]

/-- Settings that are the same for a check have the same checker. -/
theorem ofSettings (h : s.SameCheck s') (parser : SourceParser) (jobs : Option Nat) :
    Checker.ofSettings parser s jobs = Checker.ofSettings parser s' jobs := by
  rw [Checker.ofSettings, Checker.ofSettings, h.method, h.suffix, h.exclude, h.parallel]

end Settings.SameCheck

/-- Two checks have the same verdict. -/
inductive SameVerdict (w : World) (common : CommonOptions) (o : CheckOptions) (w' : World)
    (common' : CommonOptions) (o' : CheckOptions) : Prop
  /-- Neither of them starts, for the same reason. -/
  | refused {f : Failure} (hnone : ∀ s c, ¬w.Starts common o s c)
      (hnone' : ∀ s c, ¬w'.Starts common' o' s c) (hfails : (w.check common o).FailsWith f)
      (hfails' : (w'.check common' o').FailsWith f)
  /-- Both start with the same checker, find the same candidates and come to the same report. The
  exit codes are those of the report, unless neither can write it, for the same reason. -/
  | reported {s s' : Settings} {c : Checker} (hstarts : w.Starts common o s c)
      (hstarts' : w'.Starts common' o' s' c)
      (hcandidates : w.tree.resolve c.filter o.paths = w'.tree.resolve c.filter o'.paths)
      (hreport : c.run w.tree o.paths = c.run w'.tree o'.paths)
      (hend : (∃ fault, (w.check common o).FailsWith (.file fault) ∧
          (w'.check common' o').FailsWith (.file fault)) ∨
        ¬(w.check common o).Fails ∧ ¬(w'.check common' o').Fails ∧
          (w.check common o).exitCode = (c.run w.tree o.paths).exitCode ∧
          (w'.check common' o').exitCode = (c.run w'.tree o'.paths).exitCode)

namespace World

variable {w w' : World} {common common' : CommonOptions} {o o' : CheckOptions}

/-- A check that fails ends in exit code one. -/
theorem exitCode_of_check_fails (h : (w.check common o).Fails) :
    (w.check common o).exitCode = 1 := by
  obtain ⟨mode, notices, f, hcheck⟩ := eq_failed_of_check_fails h
  rw [hcheck]
  rfl

/-- A check does not start, for a given reason. -/
inductive Refuses (w : World) (common : CommonOptions) (o : CheckOptions) (f : Failure) : Prop
  /-- No settings can be loaded. -/
  | loading (h : w.loadSettings o.config common.noConfig = .error f)
  /-- They are not usable together with the command line. -/
  | settings {l : LoadedSettings} (hloaded : w.loadSettings o.config common.noConfig = .ok l)
      (h : settingsFor l o = .error f)
  /-- There is no checker for them. -/
  | checker {l : LoadedSettings} {s : Settings}
      (hloaded : w.loadSettings o.config common.noConfig = .ok l)
      (hsettings : settingsFor l o = .ok s)
      (h : Checker.ofSettings w.parser s (workers o.jobs) = .error f)

/-- A check that is refused fails for the reason that it is refused for. -/
theorem Refuses.failsWith {f : Failure} (h : w.Refuses common o f) :
    (w.check common o).FailsWith f := by
  rw [check]
  cases h with
  | loading h =>
    simp only [h]
    exact failsWith_failed ..
  | settings hloaded h =>
    simp only [hloaded, h]
    exact failsWith_failed ..
  | checker hloaded hsettings h =>
    simp only [hloaded, hsettings, h]
    exact failsWith_failed ..

/-- A check that is refused does not start. -/
theorem Refuses.not_starts {f : Failure} (h : w.Refuses common o f) (s : Settings) (c : Checker) :
    ¬w.Starts common o s c := by
  rintro ⟨l, hloaded, hsettings, hchecker⟩
  cases h with
  | loading h =>
    rw [hloaded] at h
    nomatch h
  | settings hloaded' h =>
    obtain rfl := Except.ok.inj (hloaded.symm.trans hloaded')
    rw [hsettings] at h
    nomatch h
  | checker hloaded' hsettings' h =>
    obtain rfl := Except.ok.inj (hloaded.symm.trans hloaded')
    obtain rfl := Except.ok.inj (hsettings.symm.trans hsettings')
    rw [hchecker] at h
    nomatch h

/-- Two checks that differ only in how the report is presented start with the same checker, or not
at all for the same reason. -/
theorem refuses_or_starts (hparser : w.parser = w'.parser) (ho : o.SameCheck o')
    (hloaded : LoadedAlike (w.loadSettings o.config common.noConfig)
      (w'.loadSettings o'.config common'.noConfig)) :
    (∃ f, w.Refuses common o f ∧ w'.Refuses common' o' f) ∨
      ∃ s s' c, w.Starts common o s c ∧ w'.Starts common' o' s' c := by
  generalize hload : w.loadSettings o.config common.noConfig = x at hloaded
  generalize hload' : w'.loadSettings o'.config common'.noConfig = y at hloaded
  cases hloaded with
  | failed => exact .inl ⟨_, .loading hload, .loading hload'⟩
  | @loaded l l' h =>
    have hsame := h.override ho
    cases hvalid : (l.settings.override o).validate with
    | error f =>
      refine .inl ⟨f, .settings hload ?_, .settings hload' ?_⟩
      · rw [settingsFor, hvalid]
        rfl
      · rw [settingsFor, ← hsame.validate, hvalid]
        rfl
    | ok _ =>
      have hsettings := settingsFor_eq_ok_iff.mpr ⟨rfl, hvalid⟩
      have hsettings' := settingsFor_eq_ok_iff.mpr ⟨rfl, hsame.validate ▸ hvalid⟩
      have hchecker := hsame.ofSettings w.parser (workers o.jobs)
      cases hc : Checker.ofSettings w.parser (l.settings.override o) (workers o.jobs) with
      | error f =>
        rw [hc, hparser, ho.jobs] at hchecker
        exact .inl ⟨f, .checker hload hsettings hc, .checker hload' hsettings' hchecker.symm⟩
      | ok c =>
        rw [hc, hparser, ho.jobs] at hchecker
        exact .inr ⟨_, _, c, ⟨l, hload, hsettings, hc⟩, ⟨l', hload', hsettings', hchecker.symm⟩⟩

/-- A check that has started fails if its report cannot be written. -/
theorem Starts.failsWith_of_write {s : Settings} {c : Checker} (h : w.Starts common o s c)
    {p : Path} {fault : FileFault} (hp : o.output = some p)
    (hwrite : w.tree.writeText p (w.printed common o).output = .error fault) :
    (w.check common o).FailsWith (.file fault) := by
  obtain ⟨notices, fault', hwrite', hcheck⟩ | ⟨notices, u, hwrite', -⟩ := h.check_writes hp
  · obtain rfl := Except.error.inj (hwrite.symm.trans hwrite')
    rw [hcheck]
    exact failsWith_failed ..
  · cases hwrite.symm.trans hwrite'

/-- If the report can be written, a check that has started ends in the exit code of its run. -/
theorem Starts.exitCode_of_write {s : Settings} {c : Checker} (h : w.Starts common o s c)
    (hwrite : ∀ p, o.output = some p →
      ∃ u, w.tree.writeText p (w.printed common o).output = .ok u) :
    ¬(w.check common o).Fails ∧ (w.check common o).exitCode = (c.run w.tree o.paths).exitCode := by
  cases hp : o.output with
  | none =>
    obtain ⟨notices, hharmless, hcheck⟩ := h.check_eq
    rw [hcheck, conclude, hp]
    exact ⟨Result.not_fails hharmless, rfl⟩
  | some p =>
    obtain ⟨u, hwrite⟩ := hwrite p hp
    obtain ⟨notices, fault, hwrite', -⟩ | ⟨notices, u', -, hharmless, hcheck⟩ := h.check_writes hp
    · cases hwrite.symm.trans hwrite'
    · rw [hcheck]
      exact ⟨Result.not_fails hharmless, h.printed_eq.2.1⟩

variable {places : Location → Prop}

/-- Checks that differ only in how the report is presented have the same verdict, also if settings
files differ, as long as these are not checked themselves. -/
theorem sameVerdict (hparser : w.parser = w'.parser) (ho : o.SameCheck o')
    (hloaded : LoadedAlike (w.loadSettings o.config common.noConfig)
      (w'.loadSettings o'.config common'.noConfig))
    (htree : FileTree.AlikeBut places w.tree w'.tree)
    (hplaces : ∀ s c candidates, w.Starts common o s c →
      w.tree.resolve c.filter o.paths = .ok candidates →
        ∀ p ∈ candidates, ∀ l, w.tree.LeadsTo p l → ¬places l) :
    SameVerdict w common o w' common' o' := by
  obtain ⟨f, hrefuses, hrefuses'⟩ | ⟨s, s', c, hstarts, hstarts'⟩ :=
    refuses_or_starts hparser ho hloaded
  · exact .refused hrefuses.not_starts hrefuses'.not_starts hrefuses.failsWith hrefuses'.failsWith
  · have hresolve := htree.sameKinds.resolve c.filter o.paths
    have hrun := c.run_alike htree (hplaces s c · hstarts)
    refine .reported hstarts hstarts' (ho.paths ▸ hresolve) (ho.paths ▸ hrun) ?_
    cases hp : o.output with
    | none =>
      -- there is nothing to write
      have hnone : ∀ p, o.output ≠ some p := fun p hp' => by
        rw [hp] at hp'
        nomatch hp'
      have hend := hstarts.exitCode_of_write fun p hp' => absurd hp' (hnone p)
      have hend' := hstarts'.exitCode_of_write fun p hp' => absurd (ho.output.trans hp') (hnone p)
      exact .inr ⟨hend.1, hend'.1, hend.2, hend'.2⟩
    | some p =>
      have hp' : o'.output = some p := ho.output ▸ hp
      -- what is written may differ, but not whether it can be written
      obtain ⟨fault, hwrite, hwrite'⟩ | ⟨u, u', hwrite, hwrite'⟩ :=
        htree.write p (Utf8.encode (w.printed common o).output.toList)
          (Utf8.encode (w'.printed common' o').output.toList)
      · exact .inl ⟨fault, hstarts.failsWith_of_write hp hwrite,
          hstarts'.failsWith_of_write hp' hwrite'⟩
      · have hend := hstarts.exitCode_of_write fun q hq =>
          ⟨u, by rwa [← Option.some.inj (hp.symm.trans hq)]⟩
        have hend' := hstarts'.exitCode_of_write fun q hq =>
          ⟨u', by rwa [← Option.some.inj (hp'.symm.trans hq)]⟩
        exact .inr ⟨hend.1, hend'.1, hend.2, hend'.2⟩

end World

open World

/-- Checks with the same verdict end in the same exit code. -/
theorem SameVerdict.exitCode_eq {w w' : World} {common common' : CommonOptions}
    {o o' : CheckOptions} (h : SameVerdict w common o w' common' o') :
    (w.check common o).exitCode = (w'.check common' o').exitCode := by
  cases h with
  | refused _ _ hfails hfails' =>
    rw [exitCode_of_check_fails ⟨_, hfails⟩, exitCode_of_check_fails ⟨_, hfails'⟩]
  | reported _ _ _ hreport hend =>
    obtain ⟨fault, hfails, hfails'⟩ | ⟨-, -, hexit, hexit'⟩ := hend
    · rw [exitCode_of_check_fails ⟨_, hfails⟩, exitCode_of_check_fails ⟨_, hfails'⟩]
    · rw [hexit, hexit', hreport]

/-- Checks that differ only in how the report is presented have the same verdict and the same exit
code. In one world this needs nothing else than settings from the same place, or from places that
differ only in whether an example follows. The files that hold the settings may differ as well, if
no candidate leads to one of these. -/
theorem presentation_keeps_verdict (w w' : World) (common common' : CommonOptions)
    {o o' : CheckOptions} (ho : o.SameCheck o') :
    (o.config = o'.config ∧ common.noConfig = common'.noConfig ∨
        LoadedAlike (w.loadSettings o.config common.noConfig)
          (w.loadSettings o'.config common'.noConfig) →
      SameVerdict w common o w common' o' ∧
        (w.check common o).exitCode = (w.check common' o').exitCode) ∧
    (∀ places : Location → Prop,
      w.parser = w'.parser → FileTree.AlikeBut places w.tree w'.tree →
      LoadedAlike (w.loadSettings o.config common.noConfig)
        (w'.loadSettings o'.config common'.noConfig) →
      (∀ s c candidates, w.Starts common o s c →
        w.tree.resolve c.filter o.paths = .ok candidates →
          ∀ p ∈ candidates, ∀ l, w.tree.LeadsTo p l → ¬places l) →
      SameVerdict w common o w' common' o' ∧
        (w.check common o).exitCode = (w'.check common' o').exitCode) := by
  refine ⟨fun hsettings => ?_, fun places hparser htree hloaded hplaces => ?_⟩
  · have hloaded : LoadedAlike (w.loadSettings o.config common.noConfig)
        (w.loadSettings o'.config common'.noConfig) := by
      obtain ⟨hconfig, hnoConfig⟩ | hloaded := hsettings
      · rw [hconfig, hnoConfig]
        exact .refl _
      · exact hloaded
    have hverdict := sameVerdict rfl ho hloaded (.refl w.tree) fun _ _ _ _ _ _ _ _ _ => id
    exact ⟨hverdict, hverdict.exitCode_eq⟩
  · have hverdict := sameVerdict hparser ho hloaded htree hplaces
    exact ⟨hverdict, hverdict.exitCode_eq⟩

/-- A world with the sample and a settings file. -/
def worldWith (settings : String) : World where
  tree :=
    { entries := [(["m.php"], .file (Utf8.encode Php.Cst.sampleText.toList)),
        (["guard.toml"], .file (Utf8.encode settings.toList))] }
  environment := {}
  parser := Php.parser Php.Cst.sampleGrammar

/-- Options that ask for the sample to be checked, with the settings file of `worldWith`. -/
def sampleOptions : CheckOptions where
  paths := [⟨"m.php"⟩]
  config := some ⟨"guard.toml"⟩

/-- Options that ask for the same in another form. -/
def silentOptions : CheckOptions :=
  { sampleOptions with format := .json, noExample := true }

/-- Worlds with different settings files differ in nothing else. -/
theorem worldWith_alike (settings settings' : String) :
    FileTree.AlikeBut (· = ["guard.toml"]) (worldWith settings).tree
      (worldWith settings').tree where
  working := rfl
  closed := rfl
  files := by
    rintro _ rfl
    exact ⟨_, _, rfl, rfl⟩
  others := by
    intro l hl
    have hl' : (["guard.toml"] == l) = false := beq_false_of_ne (Ne.symm hl)
    simp [worldWith, FileTree.entry?, List.find?_cons, hl']

/-- The sample has the same verdict whether its report is printed, and with an example, or not. -/
theorem worldWith_presentation_keeps_verdict :
    let w := worldWith "[check]\n"
    let w' := worldWith "[check]\nshow_example = false\n"
    let common : CommonOptions := { quiet := true, colour := .always }
    let common' : CommonOptions := { verbosity := 2 }
    (sampleOptions.SameCheck silentOptions ∧ sampleOptions.config = silentOptions.config ∧
      common.noConfig = common'.noConfig ∧
      (w.check common sampleOptions).exitCode = (w.check common' silentOptions).exitCode) ∧
    (w.parser = w'.parser ∧ FileTree.AlikeBut (· = ["guard.toml"]) w.tree w'.tree ∧
      LoadedAlike (w.loadSettings sampleOptions.config common.noConfig)
        (w'.loadSettings silentOptions.config common'.noConfig) ∧
      SameVerdict w common sampleOptions w' common' silentOptions ∧
      (w.check common sampleOptions).exitCode = (w'.check common' silentOptions).exitCode) := by
  intro w w' common common'
  have ho : sampleOptions.SameCheck silentOptions := ⟨rfl, rfl, rfl, rfl, rfl, rfl⟩
  obtain ⟨hone, htwo⟩ := presentation_keeps_verdict w w' common common' ho
  have htree : FileTree.AlikeBut (· = ["guard.toml"]) w.tree w'.tree := worldWith_alike _ _
  have hload : (w.loadSettings (some ⟨"guard.toml"⟩) false).toOption =
      some ⟨{}, some ⟨"guard.toml"⟩⟩ := by decide +kernel
  have hload' : (w'.loadSettings (some ⟨"guard.toml"⟩) false).toOption =
      some ⟨{ showExample := false }, some ⟨"guard.toml"⟩⟩ := by decide +kernel
  have hplaces : ∀ s c candidates, w.Starts common sampleOptions s c →
      w.tree.resolve c.filter sampleOptions.paths = .ok candidates →
        ∀ p ∈ candidates, ∀ l, w.tree.LeadsTo p l → ¬l = ["guard.toml"] := by
    intro s c candidates _ hresolve p hp l hleads
    obtain rfl : [⟨"m.php"⟩] = candidates := Except.ok.inj hresolve
    obtain rfl := List.mem_singleton.mp hp
    have hsample : w.tree.LeadsTo ⟨"m.php"⟩ ["m.php"] := ⟨_, rfl, rfl⟩
    rw [hleads.unique hsample]
    decide
  have hloaded := LoadedAlike.of_toOption hload hload' ⟨rfl, rfl, rfl, rfl⟩
  exact ⟨⟨ho, rfl, rfl, (hone (.inl ⟨rfl, rfl⟩)).2⟩, rfl, htree, hloaded,
    htwo _ rfl htree hloaded hplaces⟩

end MigrationLint
