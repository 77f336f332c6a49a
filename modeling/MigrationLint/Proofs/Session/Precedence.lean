import MigrationLint.Proofs.Session.ExitCode
import MigrationLint.Proofs.Settings.Loading

/-!
# Which settings a check starts with

A check starts with the settings of one place, and what the command line gives takes their place.
Settings are looked at twice: on their own when they are loaded, and once more together with the
command line.

* `Settings.Overridden`: settings together with a command line;
* `StartsFrom`: the settings and the checker that a check starts with;
* `startsFrom_iff`: these in terms of the place that decides;
* `settings_precedence`: the same, with what comes before it and what a check does about it.
-/

namespace MigrationLint

/-- Settings are other ones together with a command line. -/
structure Settings.Overridden (base : Settings) (o : CheckOptions) (s : Settings) : Prop where
  /-- The method of the command line takes the place of the other one. -/
  method : s.method = o.method.getD base.method
  /-- So does its suffix. -/
  suffix : s.suffix = o.suffix.getD base.suffix
  /-- Its exclude patterns follow the other ones. -/
  exclude : s.exclude = base.exclude ++ o.exclude
  /-- It does not say whether files are checked at the same time. -/
  parallel : s.parallel = base.parallel
  /-- It can leave out the example but not ask for it. -/
  showExample : s.showExample = true ↔ base.showExample = true ∧ o.noExample = false

/-- What it means to override settings determines the result. -/
theorem Settings.override_eq_iff {base s : Settings} {o : CheckOptions} :
    base.override o = s ↔ base.Overridden o s := by
  constructor
  · rintro rfl
    refine ⟨rfl, rfl, rfl, rfl, ?_⟩
    rw [override, Bool.and_eq_true, Bool.not_eq_true']
  · rintro ⟨hmethod, hsuffix, hexclude, hparallel, hexample⟩
    have hshow : (base.showExample && !o.noExample) = s.showExample := by
      rw [Bool.eq_iff_iff, hexample, Bool.and_eq_true, Bool.not_eq_true']
    -- every one of the settings is determined
    obtain ⟨method, suffix, exclude, parallel, showExample⟩ := s
    simp only at hmethod hsuffix hexclude hparallel hshow
    rw [override, hshow, hmethod, hsuffix, hexclude, hparallel]

/-- A check starts with given settings and a given checker, if files are read from a given source and
settings are looked for in given directories. -/
def StartsFrom (source : TextSource) (dirs : SettingsDirectories) (parser : SourceParser)
    (common : CommonOptions) (o : CheckOptions) (s : Settings) (c : Checker) : Prop :=
  ∃ l, LoadedSettings.load source dirs o.config common.noConfig = .ok l ∧
    World.settingsFor l o = .ok s ∧ Checker.ofSettings parser s (World.workers o.jobs) = .ok c

open LoadedSettings (Origin HeldBy Unusable)

/-- A check starts with the settings of the place that decides, together with the command line, if
they are usable and have a checker. -/
theorem startsFrom_iff {source : TextSource} {dirs : SettingsDirectories} {parser : SourceParser}
    {common : CommonOptions} {o : CheckOptions} {s : Settings} {c : Checker} :
    StartsFrom source dirs parser common o s c ↔
      ∃ origin l, Origin source dirs o.config common.noConfig origin ∧
        (origin.elim (l = {}) fun path => HeldBy source path l) ∧
        l.settings.Overridden o s ∧ s.validate = .ok () ∧
        Checker.ofSettings parser s (World.workers o.jobs) = .ok c := by
  constructor
  · rintro ⟨l, hloaded, hsettings, hchecker⟩
    obtain ⟨origin, horigin, hheld⟩ := LoadedSettings.load_eq_ok_iff.mp hloaded
    obtain ⟨hoverride, hvalid⟩ := World.settingsFor_eq_ok_iff.mp hsettings
    exact ⟨origin, l, horigin, hheld, Settings.override_eq_iff.mp hoverride, hvalid, hchecker⟩
  · rintro ⟨origin, l, horigin, hheld, hoverridden, hvalid, hchecker⟩
    have hoverride := Settings.override_eq_iff.mpr hoverridden
    exact ⟨l, LoadedSettings.load_eq_ok_iff.mpr ⟨origin, horigin, hheld⟩,
      World.settingsFor_eq_ok_iff.mpr ⟨hoverride, hvalid⟩, hchecker⟩

/-- A file is missing from those that are read iff reading it finds nothing. -/
theorem FileTree.readTextIfPresent_eq_none_iff {t : FileTree} {p : Path} :
    t.readTextIfPresent p = .ok none ↔ t.readText p = .error .notFound := by
  rw [readTextIfPresent]
  cases t.readText p with
  | ok text => simp
  | error fault => cases fault <;> simp

/-- One place decides which settings are loaded, and what is loaded depends on nothing else: if it is a
file, then the settings that the file holds, and none if there is a reason why it holds none. A check
starts with these settings and the command line together, if they are usable and have a checker; if
it does not start, it fails. All settings that are loaded are usable. Only a file that reading does
not find counts as missing. -/
theorem settings_precedence (source : TextSource) (dirs : SettingsDirectories)
    (parser : SourceParser) (common : CommonOptions) (o : CheckOptions) :
    (∃ origin, Origin source dirs o.config common.noConfig origin ∧
      (∀ other, Origin source dirs o.config common.noConfig other → origin = other) ∧
      LoadedSettings.load source dirs o.config common.noConfig =
        origin.elim (.ok {}) (LoadedSettings.ofFile source)) ∧
    (∀ path,
      (∀ l, LoadedSettings.ofFile source path = .ok l ↔ HeldBy source path l) ∧
      ∀ f, LoadedSettings.ofFile source path = .error f ↔ Unusable source path f) ∧
    (∀ s c, StartsFrom source dirs parser common o s c ↔
      ∃ origin l, Origin source dirs o.config common.noConfig origin ∧
        (origin.elim (l = {}) fun path => HeldBy source path l) ∧
        l.settings.Overridden o s ∧ s.validate = .ok () ∧
        Checker.ofSettings parser s (World.workers o.jobs) = .ok c) ∧
    (∀ l, ((∃ path, LoadedSettings.ofFile source path = .ok l) ∨
        LoadedSettings.search source dirs = .ok l ∨
        ∃ file noConfig, LoadedSettings.load source dirs file noConfig = .ok l) →
      l.settings.validate = .ok ()) ∧
    (∀ w : World,
      (∀ s c, StartsFrom w.tree.readTextIfPresent w.settingsDirectories w.parser common o s c →
        ∃ notices text,
          w.check common o = w.conclude common o notices (c.run w.tree o.paths) text) ∧
      ((∀ s c,
        ¬StartsFrom w.tree.readTextIfPresent w.settingsDirectories w.parser common o s c) →
          ∃ notices f, w.check common o = w.failed common.colour notices f) ∧
      ∀ p, w.tree.readTextIfPresent p = .ok none ↔ w.tree.readText p = .error .notFound) := by
  refine ⟨?_, ?_, ?_, ?_, ?_⟩
  · obtain ⟨origin, horigin⟩ :=
      LoadedSettings.exists_origin source dirs o.config common.noConfig
    exact ⟨origin, horigin, fun _ => horigin.unique, horigin.load_eq⟩
  · intro path
    exact ⟨fun _ => LoadedSettings.ofFile_eq_ok_iff, fun _ => LoadedSettings.ofFile_eq_error_iff⟩
  · intro s c
    exact startsFrom_iff
  · rintro l (⟨path, hfile⟩ | hsearch | ⟨file, noConfig, hload⟩)
    · exact LoadedSettings.validate_of_ofFile hfile
    · exact LoadedSettings.validate_of_search hsearch
    · exact LoadedSettings.validate_of_load hload
  · intro w
    refine ⟨fun s c hstarts => ?_, fun hnone => ?_, fun p => FileTree.readTextIfPresent_eq_none_iff⟩
    · -- in a world, files are read from its tree
      have hworld : w.Starts common o s c := hstarts
      exact hworld.check_eq_conclude
    · have hworld : ∀ s c, ¬w.Starts common o s c := hnone
      exact World.check_eq_failed_of_not_starts hworld

/-- Options with a settings file that is not there, and with a method. -/
def optionsWith (method : String) : CheckOptions where
  paths := [⟨"m.php"⟩]
  config := some ⟨"missing.toml"⟩
  method := some method

/-- If no settings file is to be read, a check does not miss the one that is given. It starts with the
method of the command line, and does not start if that is no method. -/
theorem sampleWorld_settings_precedence :
    (∃ notices text, sampleWorld.check noSettings (optionsWith "up") =
      sampleWorld.conclude noSettings (optionsWith "up") notices
        ((⟨⟨".php", []⟩, "up", sampleWorld.parser, true⟩ : Checker).run sampleWorld.tree
          [⟨"m.php"⟩]) text) ∧
    ∃ notices f, sampleWorld.check noSettings (optionsWith "") =
      sampleWorld.failed .auto notices f := by
  have hstarts : StartsFrom sampleWorld.tree.readTextIfPresent sampleWorld.settingsDirectories
      sampleWorld.parser noSettings (optionsWith "up") { method := "up" }
      ⟨⟨".php", []⟩, "up", sampleWorld.parser, true⟩ :=
    ⟨{}, rfl, rfl, rfl⟩
  have hnone : ∀ s c, ¬StartsFrom sampleWorld.tree.readTextIfPresent
      sampleWorld.settingsDirectories sampleWorld.parser noSettings (optionsWith "") s c := by
    -- the defaults are loaded, and they are not usable together with the command line
    rintro s c ⟨l, hload, hsettings, -⟩
    obtain rfl : {} = l := Except.ok.inj hload
    nomatch hsettings
  have hworld := fun o => (settings_precedence sampleWorld.tree.readTextIfPresent
    sampleWorld.settingsDirectories sampleWorld.parser noSettings o).2.2.2.2 sampleWorld
  exact ⟨(hworld (optionsWith "up")).1 _ _ hstarts, (hworld (optionsWith "")).2.1 hnone⟩

end MigrationLint
