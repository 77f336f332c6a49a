import MigrationLint.Proofs.Session.Presentation
import MigrationLint.Proofs.Session.Precedence
import MigrationLint.Proofs.Settings.Showing

/-!
# Looking at settings

Two commands look at settings without checking anything. One shows the settings that are in effect, and
what it shows is enough to recover them. The other one says whether a file can be used. It looks first
whether the file is there and reads it then, whereas settings are loaded by reading the file only, but
both come to the same.

* `show_loses_nothing`: shown settings determine the settings;
* `FileTree.Finds`: the files that looking and reading agree about;
* `World.readSettings_eq_map_load`: such a file is read as it is loaded;
* `validate_agrees_with_load`: the commands that look at a file agree, and fail alike.
-/

namespace MigrationLint

/-! ## Showing settings -/

/-- Settings that are shown as text are determined by the text, whatever they hold and wherever they
come from. Settings that are shown as JSON are read back from it. The command shows what it loads. -/
theorem show_loses_nothing :
    (∀ l l' : LoadedSettings, l.text = l'.text → l.settings = l'.settings) ∧
    (∀ s : Settings, Settings.ofJsonText? s.documentText = some s) ∧
    ∀ (w : World) (common : CommonOptions) (file : Option Path) (l : LoadedSettings),
      w.loadSettings file common.noConfig = .ok l →
        (w.showSettings common file .text).output = l.text ∧
        Settings.ofJsonText? (w.showSettings common file .json).output = some l.settings := by
  refine ⟨fun l l' => LoadedSettings.settings_eq_of_text_eq, Settings.ofJsonText?_documentText,
    fun w common file l hloaded => ?_⟩
  have htext : (w.showSettings common file .text).output = l.text := by
    rw [World.showSettings, hloaded]
    rfl
  have hjson : (w.showSettings common file .json).output = l.settings.documentText := by
    rw [World.showSettings, hloaded]
    rfl
  refine ⟨htext, ?_⟩
  rw [hjson]
  exact l.settings.ofJsonText?_documentText

/-- Settings whose values look like lines of settings. -/
def deceptiveSettings : Settings where
  method := "down\"\n  suffix = \""
  exclude := ["a\", \"b", "]\n"]

/-- Built-in defaults are shown like a file that has their name. -/
theorem deceptiveSettings_show_loses_nothing :
    let l : LoadedSettings := ⟨deceptiveSettings, none⟩
    let l' : LoadedSettings := ⟨deceptiveSettings, some ⟨"built-in defaults"⟩⟩
    (l ≠ l' ∧ l.text = l'.text ∧ l.settings = l'.settings) ∧
    Settings.ofJsonText? deceptiveSettings.documentText = some deceptiveSettings ∧
    sampleWorld.loadSettings none noSettings.noConfig = .ok {} ∧
    Settings.ofJsonText? (sampleWorld.showSettings noSettings none .json).output = some {} := by
  intro l l'
  obtain ⟨htext, hjson, hcommand⟩ := show_loses_nothing
  have hsame : l.text = l'.text := rfl
  have hloaded : sampleWorld.loadSettings none noSettings.noConfig = .ok {} := rfl
  exact ⟨⟨by decide, hsame, htext l l' hsame⟩, hjson _, hloaded, (hcommand _ _ _ _ hloaded).2⟩

/-! ## Files that are there -/

namespace FileTree

variable {t : FileTree} {p : Path}

/-- A path leads to something, and reading it does not come to the opposite. -/
structure Finds (t : FileTree) (p : Path) : Prop where
  /-- The path leads to something. -/
  present : t.exists? p = true
  /-- Reading does not miss it. -/
  found : t.readText p ≠ .error .notFound

/-- A text can only be read from something that is there. -/
theorem finds_of_readText {text : String} (h : t.readText p = .ok text) : t.Finds p := by
  refine ⟨?_, by simp [h]⟩
  rw [readText, read] at h
  rw [exists?]
  cases hlook : t.lookUp p with
  | error fault =>
    rw [hlook] at h
    cases h
  | ok found => rfl

/-- What a path leads to is the entry at its location. -/
theorem entry?_of_lookUp {l : Location} {e : FileEntry} (h : t.lookUp p = .ok (l, e))
    (he : e ≠ .directory) : t.entry? l = some e := by
  rw [lookUp] at h
  cases hd : t.destination .use p with
  | error fault =>
    rw [hd] at h
    cases h
  | ok d =>
    simp only [hd, bind, Except.bind] at h
    split at h
    · cases h
    next e' hentry =>
    split at h
    · cases h
    obtain ⟨rfl, rfl⟩ := Prod.mk.inj (Except.ok.inj h)
    have hfile : d.entry ≠ some .directory := by
      rw [hentry]
      exact fun hdirectory => he (Option.some.inj hdirectory)
    rw [entry?_of_destination hd hfile, hentry]

/-- A text is not found iff its bytes are not. -/
theorem readText_eq_notFound_iff :
    t.readText p = .error .notFound ↔ t.read p = .error .notFound := by
  rw [readText]
  cases t.read p with
  | error fault => simp [Except.bind]
  | ok content =>
    simp only [Except.bind, reduceCtorEq, iff_false]
    -- content that is no text has a fault of its own
    split
    · simp
    · simp

/-- Only a file that denies to be there can be missed by reading. -/
theorem finds_iff_exists? (hdenies : ∀ l, t.entry? l ≠ some (.broken .notFound)) :
    t.Finds p ↔ t.exists? p = true := by
  refine ⟨Finds.present, fun hexists => ⟨hexists, fun hread => ?_⟩⟩
  rw [exists?] at hexists
  rw [readText_eq_notFound_iff, read] at hread
  cases hlook : t.lookUp p with
  | error fault =>
    rw [hlook] at hexists
    cases hexists
  | ok found =>
    obtain ⟨l, e⟩ := found
    rw [hlook] at hread
    -- what is there has a content, or a fault of its own
    cases e with
    | broken fault =>
      obtain rfl : fault = .notFound := Except.error.inj hread
      exact hdenies l (entry?_of_lookUp hlook FileEntry.noConfusion)
    | file content => cases hread
    | device => cases hread
    | directory => cases hread
    | link target => cases hread

end FileTree

/-! ## Reading a settings file -/

namespace World

variable {w : World} {p : Path} {common : CommonOptions}

/-- A file that looking and reading agree about holds the settings that are loaded from it, and where
it holds none that has the same reason. -/
theorem readSettings_eq_map_load (h : w.tree.Finds p) :
    w.readSettings p = (w.loadSettings (some p) false).map LoadedSettings.settings := by
  have hload : w.loadSettings (some p) false =
      LoadedSettings.ofFile w.tree.readTextIfPresent p := rfl
  rw [readSettings, if_pos h.present, hload, LoadedSettings.ofFile, LoadedSettings.read?,
    FileTree.readTextIfPresent.eq_def]
  have hfound := h.found
  cases hread : w.tree.readText p with
  | error fault =>
    rw [hread] at hfound
    -- loading takes this fault alone for a file that is not there
    cases fault with
    | notFound => exact absurd rfl hfound
    | _ => rfl
  | ok text =>
    cases hparse : Settings.parse text with
    | error f => simp [hparse, Except.map]
    | ok s => simp [hparse, Except.map]

/-- Settings can only be read from a file that is there. -/
theorem finds_of_readSettings {s : Settings} (h : w.readSettings p = .ok s) : w.tree.Finds p := by
  rw [readSettings] at h
  split at h
  · cases hread : w.tree.readText p with
    | error fault =>
      rw [hread] at h
      cases h
    | ok text => exact FileTree.finds_of_readText hread
  · cases h

/-- Settings can only be loaded from a file that is there. -/
theorem finds_of_loadSettings {l : LoadedSettings} (h : w.loadSettings (some p) false = .ok l) :
    w.tree.Finds p := by
  obtain ⟨text, d, hpresent, -⟩ := (LoadedSettings.ofFile_eq_ok_iff.mp h).content
  -- a text that is present has been read
  rw [FileTree.readTextIfPresent] at hpresent
  split at hpresent
  · next hread => exact FileTree.finds_of_readText hread
  · cases hpresent
  · cases hpresent

/-- Settings are read from a file iff they are loaded from it. -/
theorem readSettings_eq_ok_iff {s : Settings} :
    w.readSettings p = .ok s ↔ ∃ l, w.loadSettings (some p) false = .ok l ∧ l.settings = s := by
  constructor
  · intro h
    rw [readSettings_eq_map_load (finds_of_readSettings h)] at h
    cases hload : w.loadSettings (some p) false with
    | error f =>
      rw [hload] at h
      cases h
    | ok l =>
      rw [hload] at h
      exact ⟨l, rfl, Except.ok.inj h⟩
  · rintro ⟨l, hload, rfl⟩
    rw [readSettings_eq_map_load (finds_of_loadSettings hload), hload]
    rfl

/-- If the file is there, reading and loading fail alike. -/
theorem readSettings_eq_error_iff (h : w.tree.Finds p) {f : Failure} :
    w.readSettings p = .error f ↔ w.loadSettings (some p) false = .error f := by
  rw [readSettings_eq_map_load h]
  cases w.loadSettings (some p) false with
  | error f' => simp [Except.map]
  | ok l => simp [Except.map]

/-- Saying whether a file can be used succeeds iff the file has usable settings. -/
theorem validateSettings_exitCode_eq_zero_iff :
    (w.validateSettings common p).exitCode = 0 ↔ ∃ s, w.readSettings p = .ok s := by
  rw [validateSettings]
  cases w.readSettings p with
  | error f =>
    refine iff_of_false Nat.one_ne_zero ?_
    rintro ⟨_, hs⟩
    cases hs
  | ok s => exact iff_of_true rfl ⟨s, rfl⟩

/-- Settings are shown iff they are loaded. -/
theorem showSettings_exitCode_eq_zero_iff {file : Option Path} {format : OutputFormat} :
    (w.showSettings common file format).exitCode = 0 ↔
      ∃ l, w.loadSettings file common.noConfig = .ok l := by
  rw [showSettings]
  cases w.loadSettings file common.noConfig with
  | error f =>
    refine iff_of_false Nat.one_ne_zero ?_
    rintro ⟨_, hl⟩
    cases hl
  | ok l => exact iff_of_true rfl ⟨l, rfl⟩

end World

/-- A file is said to be usable iff settings are loaded from it, and these are the ones that have been
looked at. If the path leads to something, then one of the two fails iff the other one does, with the
same failure. So commands that use the file, if settings files are read at all, end like the one that
looks at it. Reading can only miss a file that denies to be there. -/
theorem validate_agrees_with_load (w : World) (p : Path) :
    (∀ s, w.readSettings p = .ok s ↔
      ∃ l, w.loadSettings (some p) false = .ok l ∧ l.settings = s) ∧
    (w.tree.Finds p → ∀ f,
      w.readSettings p = .error f ↔ w.loadSettings (some p) false = .error f) ∧
    (∀ common format, common.noConfig = false →
      ((w.validateSettings common p).exitCode = 0 ↔
        (w.showSettings common (some p) format).exitCode = 0) ∧
      (w.tree.Finds p → (w.validateSettings common p).exitCode ≠ 0 →
        w.showSettings common (some p) format = w.validateSettings common p ∧
        ∀ o : CheckOptions, o.config = some p →
          w.check common o = w.validateSettings common p)) ∧
    ((∀ l, w.tree.entry? l ≠ some (.broken .notFound)) →
      (w.tree.Finds p ↔ w.tree.exists? p = true)) := by
  refine ⟨fun s => World.readSettings_eq_ok_iff, fun hfinds f =>
    World.readSettings_eq_error_iff hfinds, fun common format henabled => ⟨?_, ?_⟩,
    FileTree.finds_iff_exists?⟩
  · rw [World.validateSettings_exitCode_eq_zero_iff, World.showSettings_exitCode_eq_zero_iff,
      henabled]
    simp only [World.readSettings_eq_ok_iff]
    exact ⟨fun ⟨_, l, hl, _⟩ => ⟨l, hl⟩, fun ⟨l, hl⟩ => ⟨_, l, hl, rfl⟩⟩
  · intro hfinds hfails
    rw [Ne, World.validateSettings_exitCode_eq_zero_iff] at hfails
    cases hread : w.readSettings p with
    | ok s => exact absurd ⟨s, hread⟩ hfails
    | error f =>
      -- all three commands report what loading reports, and nothing before that
      have hload := (World.readSettings_eq_error_iff hfinds).mp hread
      have hvalidate : w.validateSettings common p = w.failed common.colour [] f := by
        rw [World.validateSettings, hread]
      refine ⟨?_, fun o ho => ?_⟩
      · rw [hvalidate, World.showSettings, henabled, hload]
        rfl
      · rw [hvalidate, World.check, ho, henabled, hload]
        rfl

/-- A world whose settings file is not text. -/
def binaryWorld : World where
  tree := { entries := [(["guard.toml"], .file [0xff])] }
  environment := {}
  parser := Php.parser Php.Cst.sampleGrammar

/-- A file that is not text is there, and all commands that look at it say why they cannot use it. -/
theorem binaryWorld_validate_agrees_with_load :
    let p : Path := ⟨"guard.toml"⟩
    let f : Failure := .unreadable p .notText
    binaryWorld.tree.Finds p ∧
    (binaryWorld.readSettings p = .error f ∧
      binaryWorld.loadSettings (some p) false = .error f) ∧
    (binaryWorld.validateSettings {} p).exitCode ≠ 0 ∧
    binaryWorld.showSettings {} (some p) .json = binaryWorld.validateSettings {} p ∧
    binaryWorld.check {} sampleOptions = binaryWorld.validateSettings {} p := by
  intro p f
  obtain ⟨-, herror, hcommands, -⟩ := validate_agrees_with_load binaryWorld p
  have hread : binaryWorld.tree.readText p = .error .notText := by decide +kernel
  have hfinds : binaryWorld.tree.Finds p := ⟨by decide +kernel, by rw [hread]; decide⟩
  have hsettings : binaryWorld.readSettings p = .error f := by
    rw [World.readSettings, if_pos hfinds.present, hread]
  have hfails : (binaryWorld.validateSettings {} p).exitCode ≠ 0 := by
    rw [World.validateSettings, hsettings]
    decide
  obtain ⟨hshow, hcheck⟩ := (hcommands {} .json rfl).2 hfinds hfails
  exact ⟨hfinds, ⟨hsettings, (herror hfinds f).mp hsettings⟩, hfails, hshow,
    hcheck sampleOptions rfl⟩

end MigrationLint
