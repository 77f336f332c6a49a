import MigrationLint.Proofs.FileTree.Writing
import MigrationLint.Proofs.Session.ExitCode

/-!
# What a session changes

A session is a sequence of commands, each of which finds the files as the one before it has left
them. A command writes at most one file, the one that it names, and one that fails writes none. So a
file that is there stays as it is unless a command names it.

* `World.Effect`: what a command does to the files;
* `World.effect_execute`: every command does this;
* `World.exists_overwrites`: a file that a session changes is named by one of its commands;
* `World.session_frame`: both, with what a check writes.
-/

namespace MigrationLint

/-! ## Failures -/

/-- A command tells of a given failure. -/
def Result.FailsWith (r : Result) (f : Failure) : Prop :=
  ∃ colour, Notice.diagnostic colour (.ofFailure f) ∈ r.notices

/-- A command tells of a failure. -/
def Result.Fails (r : Result) : Prop :=
  ∃ f, r.FailsWith f

/-- A notice that tells of no failure. -/
def Notice.IsHarmless : Notice → Prop
  | event _ => True
  | diagnostic _ d => ∀ f, d ≠ .ofFailure f

/-- A command that tells nothing but harmless things does not fail. -/
theorem Result.not_fails {r : Result} (h : ∀ n ∈ r.notices, n.IsHarmless) : ¬r.Fails := by
  rintro ⟨f, colour, hmem⟩
  exact h _ hmem f rfl

namespace World

/-- The result for a failure fails with it. -/
theorem failsWith_failed (w : World) (mode : ColourMode) (notices : List Notice) (f : Failure) :
    (w.failed mode notices f).FailsWith f :=
  ⟨_, List.mem_append_right _ (List.mem_singleton_self _)⟩

theorem fails_failed (w : World) (mode : ColourMode) (notices : List Notice) (f : Failure) :
    (w.failed mode notices f).Fails :=
  ⟨f, w.failsWith_failed mode notices f⟩

/-- Events are harmless, and so are those of loading settings. -/
theorem isHarmless_settingsEvents {noConfig : Bool} {loaded : Except Failure LoadedSettings}
    {n : Notice} (h : n ∈ settingsEvents noConfig loaded) : n.IsHarmless := by
  rw [settingsEvents.eq_def] at h
  split at h
  · obtain rfl := List.mem_singleton.mp h
    trivial
  split at h
  · nomatch h
  · obtain rfl := List.mem_singleton.mp h
    trivial

/-- The event of using settings is harmless. -/
theorem isHarmless_useEvents {l : LoadedSettings} {n : Notice} (h : n ∈ useEvents l) :
    n.IsHarmless := by
  obtain ⟨p, -, rfl⟩ := Option.map_eq_some_iff.mp (Option.mem_toList.mp h)
  trivial

/-- A warning is harmless. -/
theorem isHarmless_workerWarnings {w : World} {mode : ColourMode} {jobs : Option Nat} {n : Notice}
    (h : n ∈ w.workerWarnings mode jobs) : n.IsHarmless := by
  rw [workerWarnings] at h
  split at h
  · obtain rfl := List.mem_singleton.mp h
    intro f hf
    nomatch hf
  · nomatch h

/-! ## What a check prints and writes -/

variable {w : World} {common : CommonOptions} {o : CheckOptions} {s : Settings} {c : Checker}

/-- A check that starts ends in the report of its run. Before that it tells of no failure. -/
theorem Starts.check_eq (h : w.Starts common o s c) :
    ∃ notices, (∀ n ∈ notices, n.IsHarmless) ∧
      w.check common o = w.conclude common o notices (c.run w.tree o.paths)
        (w.render common o s (c.run w.tree o.paths)) := by
  obtain ⟨l, hloaded, hsettings, hchecker⟩ := h
  rw [check]
  simp only [hloaded, hsettings, hchecker]
  refine ⟨_, ?_, rfl⟩
  -- what is told up to then are events, and perhaps a warning
  intro n hn
  simp only [List.mem_append] at hn
  obtain ((hevent | huse) | hwarning) | htrace := hn
  · exact isHarmless_settingsEvents hevent
  · exact isHarmless_useEvents huse
  · exact isHarmless_workerWarnings hwarning
  · obtain ⟨event, -, rfl⟩ := List.mem_map.mp htrace
    trivial

/-- The same check with its report on standard output, uncoloured. -/
def printed (w : World) (common : CommonOptions) (o : CheckOptions) : Result :=
  w.check { common with quiet := false, colour := .never } { o with output := none }

/-- What a check writes to a file is what it would print uncoloured. -/
theorem Starts.printed_eq (h : w.Starts common o s c) :
    ¬(w.printed common o).Fails ∧
      (w.printed common o).exitCode = (c.run w.tree o.paths).exitCode ∧
      ∀ p, o.output = some p →
        (w.printed common o).output = w.render common o s (c.run w.tree o.paths) := by
  have hstarts : w.Starts { common with quiet := false, colour := .never }
    { o with output := none } s c := h
  obtain ⟨notices, hharmless, hcheck⟩ := hstarts.check_eq
  rw [printed, hcheck, conclude]
  refine ⟨Result.not_fails hharmless, rfl, fun p hp => ?_⟩
  -- a report that goes to a file is never coloured
  rw [render, render, hp]
  rfl

/-- A check that starts writes what it would print, or fails because it cannot. -/
theorem Starts.check_writes (h : w.Starts common o s c) {p : Path} (hp : o.output = some p) :
    (∃ notices fault, w.tree.writeText p (w.printed common o).output = .error fault ∧
      w.check common o = w.failed common.colour notices (.file fault)) ∨
    ∃ notices u, w.tree.writeText p (w.printed common o).output = .ok u ∧
      (∀ n ∈ notices, n.IsHarmless) ∧
      w.check common o = ⟨(w.printed common o).exitCode, "", notices, u⟩ := by
  obtain ⟨notices, hharmless, hcheck⟩ := h.check_eq
  obtain ⟨-, hexit, hprinted⟩ := h.printed_eq
  rw [hcheck, hexit, hprinted p hp, conclude, hp]
  dsimp only
  cases w.tree.writeText p (w.render common o s (c.run w.tree o.paths)) with
  | error fault => exact .inl ⟨_, fault, rfl, rfl⟩
  | ok u => exact .inr ⟨notices, u, rfl, hharmless, rfl⟩

/-! ## One command -/

/-- What a command does to the files of a world. -/
inductive Effect (w : World) : CommandLine → FileTree → Prop
  /-- It leaves them as they are. -/
  | nothing {c : CommandLine} : Effect w c w.tree
  /-- A check that has come to a report writes what it would print. -/
  | report {common : CommonOptions} {o : CheckOptions} {p : Path} {s : Settings} {c : Checker}
      {u : FileTree} (houtput : o.output = some p) (hstarts : w.Starts common o s c)
      (hwritten : w.tree.Written p (Utf8.encode (w.printed common o).output.toList) u) :
      Effect w ⟨common, .check o⟩ u
  /-- The template is written if nothing is there yet, or by force. -/
  | template {common : CommonOptions} {p : Path} {force : Bool} {u : FileTree}
      (hallowed : w.tree.exists? p = false ∨ force = true)
      (hwritten : w.tree.Written p (Utf8.encode Settings.template.toList) u) :
      Effect w ⟨common, .init p force⟩ u

/-- A check leaves the files as they are, or writes its report to the file that is meant for it. -/
theorem effect_check (w : World) (common : CommonOptions) (o : CheckOptions) :
    w.Effect ⟨common, .check o⟩ (w.check common o).tree := by
  by_cases hstarts : ∃ s c, w.Starts common o s c
  · obtain ⟨s, c, hstarts⟩ := hstarts
    cases hp : o.output with
    | none =>
      obtain ⟨notices, -, hcheck⟩ := hstarts.check_eq
      rw [hcheck, conclude, hp]
      exact .nothing
    | some p =>
      obtain ⟨notices, fault, -, hcheck⟩ | ⟨notices, u, hwrite, -, hcheck⟩ :=
        hstarts.check_writes hp
      · rw [hcheck]
        exact .nothing
      · rw [hcheck]
        exact .report hp hstarts (FileTree.written_of_write_eq_ok hwrite)
  · obtain ⟨notices, f, hcheck⟩ :=
      check_eq_failed_of_not_starts fun s c h => hstarts ⟨s, c, h⟩
    rw [hcheck]
    exact .nothing

/-- Making a settings file leaves the files as they are, or writes the template. -/
theorem effect_init (w : World) (common : CommonOptions) (p : Path) (force : Bool) :
    w.Effect ⟨common, .init p force⟩ (w.init p force).tree := by
  rw [init]
  by_cases hrefused : (w.tree.exists? p && !force) = true
  · rw [if_pos hrefused]
    exact .nothing
  rw [if_neg hrefused]
  have hallowed : w.tree.exists? p = false ∨ force = true := by
    simpa [Bool.and_eq_true, Decidable.imp_iff_not_or] using hrefused
  cases hwrite : w.tree.writeText p Settings.template with
  | error fault => exact .nothing
  | ok u => exact .template hallowed (FileTree.written_of_write_eq_ok hwrite)

/-- Validating a settings file changes no file. -/
theorem tree_validateSettings (w : World) (common : CommonOptions) (file : Path) :
    (w.validateSettings common file).tree = w.tree := by
  rw [validateSettings]
  cases w.readSettings file with
  | error f => rfl
  | ok s => rfl

/-- Showing settings changes no file. -/
theorem tree_showSettings (w : World) (common : CommonOptions) (file : Option Path)
    (format : OutputFormat) : (w.showSettings common file format).tree = w.tree := by
  rw [showSettings]
  cases w.loadSettings file common.noConfig with
  | error f => rfl
  | ok l => rfl

/-- Every command leaves the files as they are, or writes the one file that it names. -/
theorem effect_execute (w : World) (c : CommandLine) : w.Effect c (w.execute c).tree := by
  obtain ⟨common, command⟩ := c
  cases command with
  | check o => exact effect_check w common o
  | init p force => exact effect_init w common p force
  | validateSettings file =>
    rw [execute, tree_validateSettings]
    exact .nothing
  | showSettings file format =>
    rw [execute, tree_showSettings]
    exact .nothing

/-- What a check with an output file has in common with the one that prints its report. -/
theorem check_output (w : World) (common : CommonOptions) {o : CheckOptions} {p : Path}
    (hp : o.output = some p) :
    (w.check common o).output = "" ∧
      ((w.check common o).Fails ↔ (w.printed common o).Fails ∨
        ∃ fault, w.tree.writeText p (w.printed common o).output = .error fault) ∧
      (¬(w.check common o).Fails → (w.check common o).exitCode = (w.printed common o).exitCode ∧
        w.tree.writeText p (w.printed common o).output = .ok (w.check common o).tree) := by
  by_cases hstarts : ∃ s c, w.Starts common o s c
  · obtain ⟨s, c, hstarts⟩ := hstarts
    have hprinted := hstarts.printed_eq.1
    obtain ⟨notices, fault, hwrite, hcheck⟩ | ⟨notices, u, hwrite, hharmless, hcheck⟩ :=
      hstarts.check_writes hp
    · have hfails : (w.check common o).Fails := hcheck ▸ fails_failed ..
      exact ⟨by rw [hcheck]; rfl, iff_of_true hfails (.inr ⟨fault, hwrite⟩), absurd hfails⟩
    · have hfails : ¬(w.check common o).Fails := by
        rw [hcheck]
        exact Result.not_fails hharmless
      refine ⟨by rw [hcheck], iff_of_false hfails ?_, fun _ => ⟨by rw [hcheck], ?_⟩⟩
      · rintro (hfails' | ⟨fault, hfault⟩)
        · exact hprinted hfails'
        · rw [hwrite] at hfault
          nomatch hfault
      · rw [hwrite, hcheck]
  · -- neither of the two starts
    obtain ⟨notices, f, hcheck⟩ :=
      check_eq_failed_of_not_starts fun s c h => hstarts ⟨s, c, h⟩
    have hstarts' : ∀ s c, ¬w.Starts { common with quiet := false, colour := .never }
        { o with output := none } s c := fun s c h => hstarts ⟨s, c, h⟩
    obtain ⟨notices', f', hprinted⟩ := check_eq_failed_of_not_starts hstarts'
    have hfails : (w.check common o).Fails := hcheck ▸ fails_failed ..
    have hfails' : (w.printed common o).Fails := by
      rw [printed, hprinted]
      exact fails_failed ..
    exact ⟨by rw [hcheck]; rfl, iff_of_true hfails (.inl hfails'), absurd hfails⟩

/-! ## Commands that fail -/

/-- A check that fails has the result for a failure. -/
theorem eq_failed_of_check_fails (h : (w.check common o).Fails) :
    ∃ mode notices f, w.check common o = w.failed mode notices f := by
  by_cases hstarts : ∃ s c, w.Starts common o s c
  · obtain ⟨s, c, hstarts⟩ := hstarts
    cases hp : o.output with
    | none =>
      -- there is nothing left to go wrong
      obtain ⟨notices, hharmless, hcheck⟩ := hstarts.check_eq
      rw [hcheck, conclude, hp] at h
      exact absurd h (Result.not_fails hharmless)
    | some p =>
      obtain ⟨notices, fault, -, hcheck⟩ | ⟨notices, u, -, hharmless, hcheck⟩ :=
        hstarts.check_writes hp
      · exact ⟨_, notices, _, hcheck⟩
      · rw [hcheck] at h
        exact absurd h (Result.not_fails hharmless)
  · obtain ⟨notices, f, hcheck⟩ :=
      check_eq_failed_of_not_starts fun s c h => hstarts ⟨s, c, h⟩
    exact ⟨_, notices, f, hcheck⟩

/-- A settings file that is not made has the result for a failure. -/
theorem eq_failed_of_init_fails {p : Path} {force : Bool} (h : (w.init p force).Fails) :
    ∃ mode notices f, w.init p force = w.failed mode notices f := by
  rw [init] at h ⊢
  by_cases hrefused : (w.tree.exists? p && !force) = true
  · rw [if_pos hrefused]
    exact ⟨_, _, _, rfl⟩
  rw [if_neg hrefused] at h ⊢
  cases hwrite : w.tree.writeText p Settings.template with
  | error fault => exact ⟨_, _, _, rfl⟩
  | ok u =>
    rw [hwrite] at h
    exact absurd h (Result.not_fails fun _ hn => nomatch hn)

/-- Validation that fails has the result for a failure. -/
theorem eq_failed_of_validateSettings_fails {file : Path}
    (h : (w.validateSettings common file).Fails) :
    ∃ mode notices f, w.validateSettings common file = w.failed mode notices f := by
  rw [validateSettings] at h ⊢
  cases hread : w.readSettings file with
  | error f => exact ⟨_, _, f, rfl⟩
  | ok s =>
    rw [hread] at h
    exact absurd h (Result.not_fails fun _ hn => nomatch hn)

/-- Settings that are not shown have the result for a failure. -/
theorem eq_failed_of_showSettings_fails {file : Option Path} {format : OutputFormat}
    (h : (w.showSettings common file format).Fails) :
    ∃ mode notices f, w.showSettings common file format = w.failed mode notices f := by
  rw [showSettings] at h ⊢
  cases hloaded : w.loadSettings file common.noConfig with
  | error f => exact ⟨_, _, f, rfl⟩
  | ok l =>
    have hharmless : ∀ n ∈ settingsEvents common.noConfig (.ok l), n.IsHarmless :=
      fun _ => isHarmless_settingsEvents
    simp only [hloaded] at h
    exact absurd h (Result.not_fails hharmless)

/-- A command that tells of a failure has come to nothing else. -/
theorem eq_failed_of_fails {c : CommandLine} (h : (w.execute c).Fails) :
    ∃ mode notices f, w.execute c = w.failed mode notices f := by
  obtain ⟨common, command⟩ := c
  cases command with
  | check o => exact eq_failed_of_check_fails h
  | init p force => exact eq_failed_of_init_fails h
  | validateSettings file => exact eq_failed_of_validateSettings_fails h
  | showSettings file format => exact eq_failed_of_showSettings_fails h

/-! ## Sessions -/

/-- The world that a command leaves to the next one. -/
def next (w : World) (c : CommandLine) : World :=
  { w with tree := (w.execute c).tree }

/-- The world that a session leaves behind. -/
def after (w : World) (session : List CommandLine) : World :=
  session.foldl next w

/-- A command may write over the file at a location: it is a check that has the file as its output,
or it writes a settings file by force. -/
inductive Overwrites (w : World) (l : Location) : CommandLine → Prop
  | report {common : CommonOptions} {o : CheckOptions} {p : Path} (houtput : o.output = some p)
      (hleads : w.tree.LeadsTo p l) : Overwrites w l ⟨common, .check o⟩
  | template {common : CommonOptions} {p : Path} (hleads : w.tree.LeadsTo p l) :
    Overwrites w l ⟨common, .init p true⟩

variable {l : Location} {e : FileEntry}

/-- What is at a location stays there, unless the command may write over it. -/
theorem Effect.entry?_eq_or_overwrites {c : CommandLine} {u : FileTree} (h : w.Effect c u)
    (hentry : w.tree.entry? l = some e) : u.entry? l = some e ∨ w.Overwrites l c := by
  cases h with
  | nothing => exact .inl hentry
  | report houtput _ hwritten =>
    cases hwritten with
    | device => exact .inl hentry
    | @file place _ hleads _ _ hothers =>
      by_cases hplace : l = place
      · exact .inr (.report houtput (hplace ▸ hleads))
      · exact .inl ((hothers l hplace).trans hentry)
  | template hallowed hwritten =>
    cases hwritten with
    | device => exact .inl hentry
    | @file place _ hleads hbefore _ hothers =>
      by_cases hplace : l = place
      · -- what is there already is only written over by force
        obtain ⟨hnone, -⟩ | ⟨old, -, hexists⟩ := hbefore
        · rw [← hplace, hentry] at hnone
          nomatch hnone
        · rw [hexists] at hallowed
          obtain rfl := hallowed.resolve_left Bool.noConfusion
          exact .inr (.template (hplace ▸ hleads))
      · exact .inl ((hothers l hplace).trans hentry)

/-- If a session changes what is at a location, then one of its commands may write over it. -/
theorem exists_overwrites (session : List CommandLine) (w : World)
    (hentry : w.tree.entry? l = some e)
    (hchanged : FileTree.entry? (w.after session).tree l ≠ some e) :
    ∃ before c rest, session = before ++ c :: rest ∧ (w.after before).Overwrites l c := by
  -- by induction on the session; the first command that changes the entry may write over it
  induction session generalizing w with
  | nil => exact absurd hentry hchanged
  | cons c session ih =>
    obtain hsame | hoverwrites := (w.effect_execute c).entry?_eq_or_overwrites hentry
    · -- then the rest of the session has changed it
      obtain ⟨before, c', rest, rfl, hoverwrites⟩ := ih (w.next c) hsame hchanged
      exact ⟨c :: before, c', rest, rfl, hoverwrites⟩
    · exact ⟨[], c, session, rfl, hoverwrites⟩

/-- The last command of a session finds what the others have left behind. -/
@[simp]
theorem after_concat (w : World) (session : List CommandLine) (c : CommandLine) :
    w.after (session ++ [c]) = (w.after session).next c := by
  rw [after, List.foldl_append]
  rfl

/-- Every command of a session leaves the files as they are or writes the one file that it names,
and leaves them as they are if it fails. A check with an output file prints nothing. It writes what
it would print otherwise, and fails if it would fail to print or if this cannot be written. So what
is at a location changes only by a command that may write over it. -/
theorem session_frame (w : World) :
    (∀ session c, (w.after session).Effect c (w.after (session ++ [c])).tree) ∧
    (∀ session c, ((w.after session).execute c).Fails →
      ((w.after session).execute c).exitCode = 1 ∧
        (w.after (session ++ [c])).tree = (w.after session).tree) ∧
    (∀ session common o p, o.output = some p →
      let v := w.after session
      let r := v.execute ⟨common, .check o⟩
      r.output = "" ∧
        (r.Fails ↔ (v.printed common o).Fails ∨
          ∃ fault, v.tree.writeText p (v.printed common o).output = .error fault) ∧
        (¬r.Fails → r.exitCode = (v.printed common o).exitCode ∧
          v.tree.writeText p (v.printed common o).output = .ok r.tree)) ∧
    ∀ session l e, w.tree.entry? l = some e →
      FileTree.entry? (w.after session).tree l ≠ some e →
      ∃ before c rest, session = before ++ c :: rest ∧ (w.after before).Overwrites l c := by
  refine ⟨fun session c => ?_, fun session c hfails => ?_, fun session common o p hp => ?_,
    fun session l e hentry hchanged => ?_⟩
  · rw [after_concat]
    exact (w.after session).effect_execute c
  · obtain ⟨mode, notices, f, hfailed⟩ := eq_failed_of_fails hfails
    rw [after_concat, next, hfailed]
    exact ⟨rfl, rfl⟩
  · exact (w.after session).check_output common hp
  · exact exists_overwrites session w hentry hchanged

end World

/-- The command that writes a settings file over the only file of `sampleWorld`, unless it is
refused. -/
def initOver : CommandLine where
  command := .init ⟨"m.php"⟩ false

/-- Options that ask for what is missing to be checked, and for the report to be written over the
only file of `sampleWorld`. -/
def reportOver : CheckOptions where
  paths := [⟨"missing"⟩]
  output := some ⟨"m.php"⟩

/-- A settings file is not written over another file, unless by force. A run that stops early is no
failure: its report is written, and over a migration if it is asked for. -/
theorem sampleWorld_session_frame :
    ((sampleWorld.execute initOver).Fails ∧ (sampleWorld.execute initOver).exitCode = 1 ∧
      (sampleWorld.after [initOver]).tree = sampleWorld.tree) ∧
    (reportOver.output = some ⟨"m.php"⟩ ∧
      ¬(sampleWorld.check noSettings reportOver).Fails ∧
      (sampleWorld.check noSettings reportOver).output = "" ∧
      sampleWorld.tree.writeText ⟨"m.php"⟩ (sampleWorld.printed noSettings reportOver).output =
        .ok (sampleWorld.check noSettings reportOver).tree) ∧
    ∃ old, sampleWorld.tree.entry? ["m.php"] = some old ∧
      FileTree.entry? (sampleWorld.after [⟨noSettings, .check reportOver⟩]).tree ["m.php"] ≠
        some old ∧
      ∃ before c rest, [⟨noSettings, .check reportOver⟩] = before ++ c :: rest ∧
        (sampleWorld.after before).Overwrites ["m.php"] c := by
  obtain ⟨-, hfailed, houtput, hsession⟩ := sampleWorld.session_frame
  have hrefused : (sampleWorld.execute initOver).Fails := World.fails_failed ..
  obtain ⟨hempty, -, hwrites⟩ := houtput [] noSettings reportOver ⟨"m.php"⟩ rfl
  have hchanged : FileTree.entry? (sampleWorld.check noSettings reportOver).tree ["m.php"] ≠
      sampleWorld.tree.entry? ["m.php"] := by decide +kernel
  have hfails : ¬(sampleWorld.check noSettings reportOver).Fails := by
    intro hfails
    have htree := (hfailed [] ⟨noSettings, .check reportOver⟩ hfails).2
    exact hchanged (congrArg (fun t => t.entry? ["m.php"]) htree)
  exact ⟨⟨hrefused, hfailed [] initOver hrefused⟩, ⟨rfl, hfails, hempty, (hwrites hfails).2⟩,
    _, rfl, hchanged, hsession _ _ _ rfl hchanged⟩

end MigrationLint
