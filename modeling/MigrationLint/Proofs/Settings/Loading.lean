import MigrationLint.Settings.Location

/-!
# Which settings are loaded

One place decides which settings are loaded. If it is a file, then the settings are those in this file,
and if they cannot be used there are none: no other place is looked at to make up for it.

* `LoadedSettings.Origin`: the place that decides;
* `LoadedSettings.HeldBy`, `LoadedSettings.Unusable`: what there can be in a file;
* `LoadedSettings.Origin.load_eq`: what is loaded in these terms.
-/

namespace MigrationLint

open Toml (Document)

namespace Settings

/-- Settings can be read from a text iff it is a document that holds them and they are usable. -/
theorem parse_eq_ok_iff {text : String} {s : Settings} :
    parse text = .ok s ↔
      ∃ d, Document.ofText? text = some d ∧ ofDocument d = .ok s ∧ s.validate = .ok () := by
  rw [parse]
  cases Document.ofText? text with
  | none => simp
  | some d =>
    simp only [Option.some.injEq, exists_eq_left']
    cases ofDocument d with
    | error fault => simp
    | ok s' =>
      cases hvalid : s'.validate with
      | error f =>
        simp only [hvalid, bind, Except.bind, Except.ok.injEq, reduceCtorEq, false_iff, not_and]
        rintro rfl
        simp [hvalid]
      | ok _ =>
        simp only [hvalid, bind, Except.bind, pure, Except.pure, Except.ok.injEq]
        constructor
        · rintro rfl
          exact ⟨rfl, hvalid⟩
        · exact And.left

theorem validate_default : ({} : Settings).validate = .ok () :=
  rfl

end Settings

namespace LoadedSettings

variable {source : TextSource} {dirs : SettingsDirectories} {file : Option Path} {noConfig : Bool}
  {path : Path} {l : LoadedSettings}

/-! ## A file -/

/-- A file holds settings: it can be read, its text is a document with these settings, and they are
usable. -/
structure HeldBy (source : TextSource) (path : Path) (l : LoadedSettings) : Prop where
  /-- The file can be read and holds the settings. -/
  content : ∃ text d, source path = .ok (some text) ∧ Document.ofText? text = some d ∧
    Settings.ofDocument d = .ok l.settings
  /-- The settings are usable. -/
  usable : l.settings.validate = .ok ()
  /-- They come from the file. -/
  source : l.source = some path

/-- Why there are no settings in a file that is wanted. -/
inductive Unusable (source : TextSource) (path : Path) : Failure → Prop
  /-- Nothing has the path. -/
  | missing (habsent : source path = .ok none) :
      Unusable source path (.settings (.fileNotFound path))
  /-- The file cannot be read. -/
  | unreadable {fault : FileFault} (hread : source path = .error fault) :
      Unusable source path (.unreadable path fault)
  /-- The text of the file is no document with usable settings. -/
  | rejected {text : String} {failure : Failure} (hread : source path = .ok (some text))
      (hparse : Settings.parse text = .error failure) : Unusable source path failure

/-- Settings are loaded from a file iff it holds them. -/
theorem ofFile_eq_ok_iff : ofFile source path = .ok l ↔ HeldBy source path l := by
  constructor
  · intro h
    rw [ofFile, read?] at h
    cases hread : source path with
    | error fault => simp [hread] at h
    | ok content =>
      cases content with
      | none => simp [hread] at h
      | some text =>
        cases hparse : Settings.parse text with
        | error failure => simp [hread, hparse, Except.map] at h
        | ok s =>
          obtain rfl : ⟨s, some path⟩ = l := by simpa [hread, hparse, Except.map] using h
          obtain ⟨d, hdocument, hsettings, hvalid⟩ := Settings.parse_eq_ok_iff.mp hparse
          exact ⟨⟨text, d, hread, hdocument, hsettings⟩, hvalid, rfl⟩
  · rintro ⟨⟨text, d, hread, hdocument, hsettings⟩, hvalid, hsource⟩
    have hparse := Settings.parse_eq_ok_iff.mpr ⟨d, hdocument, hsettings, hvalid⟩
    simp [ofFile, read?, hread, hparse, Except.map, ← hsource]

/-- Loading settings from a file fails iff there is a reason why it holds none. -/
theorem ofFile_eq_error_iff {failure : Failure} :
    ofFile source path = .error failure ↔ Unusable source path failure := by
  constructor
  · intro h
    rw [ofFile, read?] at h
    cases hread : source path with
    | error fault =>
      obtain rfl : Failure.unreadable path fault = failure := by simpa [hread] using h
      exact .unreadable hread
    | ok content =>
      cases content with
      | none =>
        obtain rfl : Failure.settings (.fileNotFound path) = failure := by simpa [hread] using h
        exact .missing hread
      | some text =>
        cases hparse : Settings.parse text with
        | error failure' =>
          obtain rfl : failure' = failure := by simpa [hread, hparse, Except.map] using h
          exact .rejected hread hparse
        | ok s => simp [hread, hparse, Except.map] at h
  · rintro (hread | hread | ⟨hread, hparse⟩)
    · simp [ofFile, read?, hread]
    · simp [ofFile, read?, hread]
    · simp [ofFile, read?, hread, hparse, Except.map]

/-! ## The usual places -/

theorem read?_eq_none_iff : read? source path = .ok none ↔ source path = .ok none := by
  rw [read?]
  cases source path with
  | error fault => simp
  | ok content =>
    cases content with
    | none => simp
    | some text => cases hparse : Settings.parse text <;> simp [hparse, Except.map]

/-- If nothing is in any of several places, the defaults are loaded. -/
theorem first_of_absent {paths : List Path} (habsent : ∀ p ∈ paths, source p = .ok none) :
    first source paths = .ok {} := by
  induction paths with
  | nil => rfl
  | cons p paths ih =>
    obtain ⟨hp, hpaths⟩ := List.forall_mem_cons.mp habsent
    rw [first, read?_eq_none_iff.mpr hp]
    exact ih hpaths

/-- The first of several places where something is decides alone. -/
theorem first_of_present {before : List Path} (habsent : ∀ p ∈ before, source p = .ok none)
    (hpresent : source path ≠ .ok none) (after : List Path) :
    first source (before ++ path :: after) = ofFile source path := by
  induction before with
  | nil =>
    rw [List.nil_append, first, ofFile]
    cases hread : read? source path with
    | error failure => rfl
    | ok content =>
      cases content with
      | none => exact absurd (read?_eq_none_iff.mp hread) hpresent
      | some l => rfl
  | cons p before ih =>
    obtain ⟨hp, hbefore⟩ := List.forall_mem_cons.mp habsent
    rw [List.cons_append, first, read?_eq_none_iff.mpr hp]
    exact ih hbefore

/-- A file that cannot be read stands before one that is fine. -/
example : first (fun p => if p = ⟨"a"⟩ then .error .notText else .ok (some "")) [⟨"a"⟩, ⟨"b"⟩] =
    .error (.unreadable ⟨"a"⟩ .notText) :=
  rfl

/-! ## The place that decides -/

/-- The file that decides which settings are loaded, if there is one. -/
inductive Origin (source : TextSource) (dirs : SettingsDirectories) (file : Option Path)
    (noConfig : Bool) : Option Path → Prop
  /-- No file is to be read, whether or not one is given. -/
  | disabled (hdisabled : noConfig = true) : Origin source dirs file noConfig none
  /-- The file that is given, whether or not it is there. -/
  | given {path : Path} (henabled : noConfig = false) (hfile : file = some path) :
      Origin source dirs file noConfig (some path)
  /-- The file in the working directory, if one is there. -/
  | working {d : Path} (henabled : noConfig = false) (hfile : file = none)
      (hworking : dirs.working = some d) (hpresent : source (d.join localName) ≠ .ok none) :
      Origin source dirs file noConfig (some (d.join localName))
  /-- The file of the user, if one is there and none in the working directory. -/
  | user {d : Path} (henabled : noConfig = false) (hfile : file = none)
      (habsent : ∀ d', dirs.working = some d' → source (d'.join localName) = .ok none)
      (huser : dirs.user = some d) (hpresent : source (d.join userName) ≠ .ok none) :
      Origin source dirs file noConfig (some (d.join userName))
  /-- There is no file in any of the usual places. -/
  | defaults (henabled : noConfig = false) (hfile : file = none)
      (habsent : ∀ d', dirs.working = some d' → source (d'.join localName) = .ok none)
      (habsent' : ∀ d', dirs.user = some d' → source (d'.join userName) = .ok none) :
      Origin source dirs file noConfig none

/-- What is loaded is what the place that decides holds, or the defaults if there is none. -/
theorem Origin.load_eq {origin : Option Path} (h : Origin source dirs file noConfig origin) :
    load source dirs file noConfig = origin.elim (.ok {}) (ofFile source) := by
  rw [load.eq_def]
  cases h with
  | disabled hdisabled => rw [hdisabled]; rfl
  | given henabled hfile => rw [henabled, hfile]; rfl
  | @working d henabled hfile hworking hpresent =>
    rw [henabled, hfile]
    -- nothing comes before the working directory
    have hplaces : places dirs =
        [] ++ d.join localName :: (dirs.user.map (·.join userName)).toList := by
      rw [places, hworking]
      rfl
    show first source (places dirs) = _
    rw [hplaces]
    exact first_of_present (List.forall_mem_nil _) hpresent _
  | @user d henabled hfile habsent huser hpresent =>
    rw [henabled, hfile]
    -- the working directory comes before, if it is known at all
    have hplaces : places dirs =
        (dirs.working.map (·.join localName)).toList ++ d.join userName :: [] := by
      rw [places, huser]
      rfl
    show first source (places dirs) = _
    rw [hplaces]
    refine first_of_present (fun p hp => ?_) hpresent _
    obtain ⟨d', hd', rfl⟩ := Option.map_eq_some_iff.mp (Option.mem_toList.mp hp)
    exact habsent d' hd'
  | defaults henabled hfile habsent habsent' =>
    rw [henabled, hfile]
    show first source (places dirs) = _
    refine first_of_absent fun p hp => ?_
    rcases List.mem_append.mp hp with hworking | huser
    · obtain ⟨d', hd', rfl⟩ := Option.map_eq_some_iff.mp (Option.mem_toList.mp hworking)
      exact habsent d' hd'
    · obtain ⟨d', hd', rfl⟩ := Option.map_eq_some_iff.mp (Option.mem_toList.mp huser)
      exact habsent' d' hd'

/-- Some place decides, or none does. -/
theorem exists_origin (source : TextSource) (dirs : SettingsDirectories) (file : Option Path)
    (noConfig : Bool) : ∃ origin, Origin source dirs file noConfig origin := by
  -- the cases stand in the order of precedence: each place is only looked at if those before it
  -- have not decided
  cases noConfig with
  | true => exact ⟨_, .disabled rfl⟩
  | false =>
    cases file with
    | some path => exact ⟨_, .given rfl rfl⟩
    | none =>
      by_cases hworking : ∃ d, dirs.working = some d ∧ source (d.join localName) ≠ .ok none
      · obtain ⟨d, hd, hpresent⟩ := hworking
        exact ⟨_, .working rfl rfl hd hpresent⟩
      have habsent : ∀ d, dirs.working = some d → source (d.join localName) = .ok none :=
        fun d hd => Classical.not_not.mp fun h => hworking ⟨d, hd, h⟩
      by_cases huser : ∃ d, dirs.user = some d ∧ source (d.join userName) ≠ .ok none
      · obtain ⟨d, hd, hpresent⟩ := huser
        exact ⟨_, .user rfl rfl habsent hd hpresent⟩
      · exact ⟨_, .defaults rfl rfl habsent fun d hd =>
          Classical.not_not.mp fun h => huser ⟨d, hd, h⟩⟩

/-- No two places decide. -/
theorem Origin.unique {origin origin' : Option Path} (h : Origin source dirs file noConfig origin)
    (h' : Origin source dirs file noConfig origin') : origin = origin' := by
  -- two different cases contradict each other in the first place that only one of them looks at
  cases h <;> cases h' <;> simp_all

/-- Settings that have been loaded come from the place that decides. -/
theorem load_eq_ok_iff :
    load source dirs file noConfig = .ok l ↔
      ∃ origin, Origin source dirs file noConfig origin ∧
        origin.elim (l = {}) fun path => HeldBy source path l := by
  obtain ⟨origin, horigin⟩ := exists_origin source dirs file noConfig
  have hload : load source dirs file noConfig = .ok l ↔
      origin.elim (l = {}) fun path => HeldBy source path l := by
    rw [horigin.load_eq]
    cases origin with
    | none => exact ⟨fun h => (Except.ok.inj h).symm, fun h => h ▸ rfl⟩
    | some path => exact ofFile_eq_ok_iff
  rw [hload]
  constructor
  · intro h
    exact ⟨origin, horigin, h⟩
  -- whatever place is given, it is the one that decides
  · rintro ⟨origin', horigin', h⟩
    exact horigin.unique horigin' ▸ h

/-! ## Usable settings -/

theorem validate_of_ofFile (h : ofFile source path = .ok l) : l.settings.validate = .ok () :=
  (ofFile_eq_ok_iff.mp h).usable

theorem validate_of_load (h : load source dirs file noConfig = .ok l) :
    l.settings.validate = .ok () := by
  obtain ⟨origin, -, horigin⟩ := load_eq_ok_iff.mp h
  cases origin with
  | none =>
    obtain rfl : l = {} := horigin
    exact Settings.validate_default
  | some path => exact horigin.usable

theorem validate_of_search (h : search source dirs = .ok l) : l.settings.validate = .ok () := by
  have hload : load source dirs none false = .ok l := h
  exact validate_of_load hload

end LoadedSettings

end MigrationLint
