import MigrationLint.Proofs.CommandLine.Selection

/-!
# Command lines are read back

What can be asked for can be written as arguments, and reading the arguments gives it back. What the
values look like does not matter, since each of them is attached to its option, and neither does what
the paths look like, which stand after `--`.

* `readLevels_commandArguments`: what the arguments of a command add up to at each level;
* `parse_arguments`: the command line that is read is the one that has been written.
-/

namespace MigrationLint

/-! ## What can be asked for -/

/-- What arguments can ask a check for. -/
structure CheckOptions.IsExpressible (o : CheckOptions) : Prop where
  /-- There is something to check. -/
  paths_ne_nil : o.paths ≠ []
  /-- No path is empty. -/
  paths : ∀ p ∈ o.paths, p.text ≠ ""
  /-- The path of the settings file is not empty. -/
  config : ∀ p ∈ o.config, p.text ≠ ""
  /-- The path of the output file is not empty. -/
  output : ∀ p ∈ o.output, p.text ≠ ""
  /-- The number of workers fits 64 bits. -/
  jobs : ∀ n ∈ o.jobs, n < Nat.pow 2 64

/-- The command is one that arguments can ask for. -/
def Command.IsExpressible : Command → Prop
  | check o => o.IsExpressible
  | init output _ => output.text ≠ ""
  | validateSettings file => file.text ≠ ""
  | showSettings file _ => ∀ p ∈ file, p.text ≠ ""

namespace CommandLine

/-- The command line is one that arguments can ask for. -/
structure IsExpressible (c : CommandLine) : Prop where
  /-- Verbose output is asked for no more often than counts. -/
  verbosity : c.common.verbosity ≤ maxVerbosity
  /-- The command can be asked for. -/
  command : c.command.IsExpressible

/-- How the options that every command takes are given. -/
def commonGiven (c : CommonOptions) : OptionName → List Given
  | .verbose => List.replicate c.verbosity .verbose
  | .quiet => if c.quiet then [.quiet] else []
  | .colour => [.colour c.colour]
  | .noConfig => if c.noConfig then [.noConfig] else []
  | _ => []

/-- How the options of a command are given. -/
def commandGiven : Command → OptionName → List Given
  | .check o, .config => (o.config.map .config).toList
  | .check o, .method => (o.method.map .method).toList
  | .check o, .suffix => (o.suffix.map .suffix).toList
  | .check o, .exclude => o.exclude.map .exclude
  | .check o, .format => [.format o.format]
  | .check o, .output => (o.output.map .output).toList
  | .check o, .jobs => (o.jobs.map .jobs).toList
  | .check o, .noExample => if o.noExample then [.noExample] else []
  | .init output _, .output => [.output output]
  | .init _ force, .force => if force then [.force] else []
  | .validateSettings file, .config => [.config file]
  | .showSettings file _, .config => (file.map .config).toList
  | .showSettings _ format, .showFormat => [.showFormat format]
  | _, _ => []

/-- The common options can be given. -/
theorem isSelection_commonGiven (c : CommonOptions) : IsSelection (commonGiven c) := by
  intro o
  cases o with
  | verbose =>
    exact .repeated rfl (by simp [commonGiven, Given.name]) (by simp [commonGiven, Given.IsReadable])
  | quiet => exact .ite (g := .quiet) trivial _
  | colour => exact .single (g := .colour _) trivial
  | noConfig => exact .ite (g := .noConfig) trivial _
  | _ => exact .nil _

/-- The options of an expressible check can be given. -/
theorem isSelection_checkGiven {c : CheckOptions} (h : c.IsExpressible) :
    IsSelection (commandGiven (.check c)) := by
  intro o
  cases o with
  | config => exact .option (fun _ => rfl) h.config
  | method => exact .option (fun _ => rfl) fun _ _ => trivial
  | suffix => exact .option (fun _ => rfl) fun _ _ => trivial
  | exclude =>
    exact .repeated rfl (by simp [commandGiven, Given.name]) (by simp [commandGiven, Given.IsReadable])
  | format => exact .single (g := .format _) trivial
  | output => exact .option (fun _ => rfl) h.output
  | jobs => exact .option (fun _ => rfl) h.jobs
  | noExample => exact .ite (g := .noExample) trivial _
  | _ => exact .nil _

/-- The options of every expressible command can be given. -/
theorem isSelection_commandGiven {c : Command} (h : c.IsExpressible) :
    IsSelection (commandGiven c) := by
  intro o
  cases c with
  | check c => exact isSelection_checkGiven h o
  | init output force =>
    cases o with
    | output => exact .single (g := .output _) h
    | force => exact .ite (g := .force) trivial _
    | _ => exact .nil _
  | validateSettings file =>
    cases o with
    | config => exact .single (g := .config _) h
    | _ => exact .nil _
  | showSettings file format =>
    cases o with
    | config => exact .option (fun _ => rfl) h
    | showFormat => exact .single (g := .showFormat _) trivial
    | _ => exact .nil _

/-! ## Writing -/

/-- A switch is written if it is on. -/
theorem map_argument_ite (g : Given) (hg : g.value? = none) (b : Bool) :
    (if b then [g] else []).map Given.argument = switch g.name b := by
  cases b with
  | true => simp [switch, Given.argument, hg]
  | false => rfl

/-- An optional value is written if it is there. -/
theorem map_argument_option {α : Type} (f : α → Given) (text : α → String) (o : OptionName)
    (hf : ∀ a, (f a).argument = attached o (text a)) (x : Option α) :
    (x.map f).toList.map Given.argument = optional o (x.map text) := by
  cases x with
  | none => rfl
  | some a => simp [optional, hf]

/-- The options that every command takes are written as what is given at the start. -/
theorem commonArguments_eq (c : CommonOptions) :
    commonArguments c = (Level.top.givens (commonGiven c)).map Given.argument := by
  simp [commonArguments, Level.givens, Level.options, Level.commonOptions, commonGiven,
    map_argument_ite .quiet rfl, map_argument_ite .noConfig rfl, Given.name, Given.argument,
    Given.value?]

/-- The level that a command ends at. -/
def levelOf : Command → Level
  | .check _ => .check
  | .init _ _ => .init
  | .validateSettings _ => .configValidate
  | .showSettings _ _ => .configShow

/-- The words that lead to the level of a command. -/
def wordsOf : Command → List String
  | .check _ => ["check"]
  | .init _ _ => ["init"]
  | .validateSettings _ => ["config", "validate"]
  | .showSettings _ _ => ["config", "show"]

/-- The arguments that end a command. -/
def pathsOf : Command → List String
  | .check o => "--" :: o.paths.map Path.text
  | _ => []

/-- The options of a check are written as what is given, before the paths. -/
theorem checkArguments_eq (o : CheckOptions) :
    checkArguments o = (Level.check.givens (commandGiven (.check o))).map Given.argument ++
      "--" :: o.paths.map Path.text := by
  simp [checkArguments, Level.givens, Level.options, Level.commonOptions, commandGiven,
    map_argument_ite .noExample rfl, map_argument_option Given.config Path.text .config fun _ => rfl,
    map_argument_option Given.output Path.text .output fun _ => rfl,
    map_argument_option Given.method id .method fun _ => rfl,
    map_argument_option Given.suffix id .suffix fun _ => rfl,
    map_argument_option Given.jobs toString .jobs fun _ => rfl, Given.name, Given.argument,
    Given.value?, Function.comp_def]

/-- A command is written as the words that lead to its level, what is given there, and paths. -/
theorem commandArguments_eq (c : Command) :
    commandArguments c = wordsOf c ++
      (((levelOf c).givens (commandGiven c)).map Given.argument ++ pathsOf c) := by
  cases c with
  | check o =>
    rw [commandArguments, checkArguments_eq]
    rfl
  | init output force =>
    simp [commandArguments, wordsOf, levelOf, pathsOf, Level.givens, Level.options,
      Level.commonOptions, commandGiven, map_argument_ite .force rfl, Given.name, Given.argument,
      Given.value?]
  | validateSettings file => rfl
  | showSettings file format =>
    simp [commandArguments, wordsOf, levelOf, pathsOf, Level.givens, Level.options,
      Level.commonOptions, commandGiven,
      map_argument_option Given.config Path.text .config fun _ => rfl, Given.name, Given.argument,
      Given.value?]

/-! ## Reading -/

/-- A command leads to a level further inside, where the rest is read. -/
theorem readLevels_command {l : Level} (inner : Level) {name : String}
    (hcommand : l.command? name = some inner) (hhelp : inner ≠ .help)
    (hpaths : l.takesPaths = false) (gs : List Given) (rest : List String) :
    readLevels l { given := gs } (name :: rest) =
      (readLevels inner {} rest).map fun levels => (l, { given := gs }) :: levels := by
  have hnext : Progress.command? { given := gs } l name = some inner := hcommand
  have hfinish : Progress.finish { given := gs } l true = .ok { given := gs } := by
    show (if (!l.commands.isEmpty && false) = true then _ else
      if (l.takesPaths && true) = true then _ else _) = _
    simp only [hpaths, Bool.and_false, Bool.false_and, Bool.false_eq_true, if_false]
    rfl
  rw [readLevels, hnext]
  cases inner with
  | help => exact absurd rfl hhelp
  | top | check | init | config | configValidate | configShow =>
    simp only [hfinish]
    cases readLevels _ {} rest <;> rfl

/-- A check that has met paths after `--` and not read them yet. -/
def meetsPaths (gs : List Given) (texts : List String) : Progress where
  given := gs
  pending := some (.paths texts)
  pathsOnly := true

/-- After `--` everything is a path. -/
theorem readLevels_meetsPaths (gs : List Given) (ts us : List String) :
    readLevels .check (meetsPaths gs ts) us = readLevels .check (meetsPaths gs (ts ++ us)) [] := by
  induction us generalizing ts with
  | nil => rw [List.append_nil]
  | cons u us ih =>
    have hstep : readLevels .check (meetsPaths gs ts) (u :: us) =
        readLevels .check (meetsPaths gs (ts ++ [u])) us := rfl
    rw [hstep, ih, List.append_assoc]
    rfl

/-- The paths of a check are read behind two dashes. -/
theorem readLevels_check {gs : List Given} {ps : List Path} (hne : ps ≠ [])
    (hps : ∀ p ∈ ps, p.text ≠ "") :
    readLevels .check { given := gs } ("--" :: ps.map Path.text) =
      .ok [(.check, { given := gs, paths := ps, pathsOnly := true })] := by
  obtain ⟨p, qs, rfl⟩ := List.exists_cons_of_ne_nil hne
  have hread : ([p.text] ++ qs.map Path.text).mapM readPath = .ok (p :: qs) := mapM_readPath hps
  have hfirst : readLevels .check { given := gs } ("--" :: (p :: qs).map Path.text) =
      readLevels .check (meetsPaths gs [p.text]) (qs.map Path.text) := rfl
  rw [hfirst, readLevels_meetsPaths, meetsPaths, readLevels, Progress.finish, Progress.settle]
  simp only [hread]
  rfl

/-- What is read at the level of a command. -/
def progressOf : Command → Progress
  | .check o =>
    { given := Level.check.givens (commandGiven (.check o)), paths := o.paths, pathsOnly := true }
  | c => { given := (levelOf c).givens (commandGiven c) }

/-- What is read at the levels below the start. -/
def levelsOf (c : Command) : Levels :=
  match c with
  | .check _ | .init _ _ => [(levelOf c, progressOf c)]
  | .validateSettings _ | .showSettings _ _ => [(.config, {}), (levelOf c, progressOf c)]

/-- At its own level a command is read from what is given and the paths. -/
theorem readLevels_commandGiven {c : Command} (h : c.IsExpressible) :
    readLevels (levelOf c) {}
        (((levelOf c).givens (commandGiven c)).map Given.argument ++ pathsOf c) =
      .ok [(levelOf c, progressOf c)] := by
  have hadmits : (levelOf c).Admits ([] ++ (levelOf c).givens (commandGiven c)) :=
    admits_givens (isSelection_commandGiven h)
  rw [readLevels_arguments hadmits]
  cases c with
  | check o => exact readLevels_check h.paths_ne_nil h.paths
  | init | validateSettings | showSettings => rfl

/-- The arguments of a command add its levels to what has been read before. -/
theorem readLevels_commandArguments {c : Command} (h : c.IsExpressible) (gs : List Given) :
    readLevels .top { given := gs } (commandArguments c) =
      .ok ((.top, { given := gs }) :: levelsOf c) := by
  have hread := readLevels_commandGiven h
  rw [commandArguments_eq]
  cases c with
  | check o =>
    rw [wordsOf, List.cons_append, readLevels_command .check rfl (by decide) rfl]
    exact congrArg (Except.map _) hread
  | init output force =>
    rw [wordsOf, List.cons_append, readLevels_command .init rfl (by decide) rfl]
    exact congrArg (Except.map _) hread
  | validateSettings file =>
    rw [wordsOf, List.cons_append, List.cons_append,
      readLevels_command .config rfl (by decide) rfl,
      readLevels_command .configValidate rfl (by decide) rfl]
    exact congrArg (Except.map _) (congrArg (Except.map _) hread)
  | showSettings file format =>
    rw [wordsOf, List.cons_append, List.cons_append,
      readLevels_command .config rfl (by decide) rfl,
      readLevels_command .configShow rfl (by decide) rfl]
    exact congrArg (Except.map _) (congrArg (Except.map _) hread)

/-- What is read at the start and below it. -/
def allLevelsOf (c : CommonOptions) (d : Command) : Levels :=
  (.top, { given := Level.top.givens (commonGiven c) }) :: levelsOf d

/-- All levels of a command line are read back. -/
theorem readLevels_top {c : CommandLine} (h : c.command.IsExpressible) :
    readLevels .top {} (arguments c) = .ok (allLevelsOf c.common c.command) := by
  have hadmits : Level.top.Admits ([] ++ Level.top.givens (commonGiven c.common)) :=
    admits_givens (isSelection_commonGiven _)
  rw [arguments, commonArguments_eq, readLevels_arguments hadmits, List.nil_append,
    readLevels_commandArguments h, allLevelsOf]

/-! ## Reading back -/

attribute [ext] CheckOptions

/-- The options of a check are read back. -/
theorem checkOptions_progressOf {o : CheckOptions} (h : o.IsExpressible) :
    checkOptions (progressOf (.check o)) = o := by
  have hs : IsSelection (commandGiven (.check o)) := isSelection_checkGiven h
  ext1
  case paths => rfl
  case config => exact configOf_givens hs (by decide) rfl
  case method =>
    exact pick?_givens (k := .method) hs (by decide) (by rintro ⟨⟩ a <;> simp) (fun _ => rfl) rfl
  case suffix =>
    exact pick?_givens (k := .suffix) hs (by decide) (by rintro ⟨⟩ a <;> simp) (fun _ => rfl) rfl
  case exclude =>
    show List.filterMap _ (Level.check.givens _) = _
    rw [filterMap_givens (k := .exclude) hs (by decide) (by rintro ⟨⟩ a <;> simp) fun _ => rfl]
    simp [commandGiven]
  case format =>
    exact congrArg (fun f : Option OutputFormat => f.getD .text) <|
      pick?_givens (k := .format) hs (by decide) (by rintro ⟨⟩ a <;> simp) (fun _ => rfl)
        (x := some o.format) rfl
  case output => exact outputOf_givens hs (by decide) rfl
  case jobs =>
    exact pick?_givens (k := .jobs) hs (by decide) (by rintro ⟨⟩ a <;> simp) (fun _ => rfl) rfl
  case noExample => exact contains_givens hs (by decide) rfl

/-- A command is read back. -/
theorem commandOf?_progressOf {c : Command} (h : c.IsExpressible) :
    commandOf? (progressOf c) (levelOf c) = some c := by
  have hs := isSelection_commandGiven h
  cases c with
  | check o => rw [levelOf, commandOf?, checkOptions_progressOf h]
  | init output force =>
    have houtput : outputOf (Level.init.givens (commandGiven (.init output force))) = some output :=
      outputOf_givens hs (by decide) rfl
    have hforce : (Level.init.givens (commandGiven (.init output force))).contains .force = force :=
      contains_givens hs (by decide) rfl
    show commandOf? { given := Level.init.givens _ } .init = _
    rw [commandOf?, houtput, hforce]
    rfl
  | validateSettings file =>
    have hfile : configOf (Level.configValidate.givens (commandGiven (.validateSettings file))) =
        some file :=
      configOf_givens hs (by decide) rfl
    show commandOf? { given := Level.configValidate.givens _ } .configValidate = _
    rw [commandOf?, hfile]
    rfl
  | showSettings file format =>
    have hfile : configOf (Level.configShow.givens (commandGiven (.showSettings file format))) =
        file :=
      configOf_givens hs (by decide) rfl
    show commandOf? { given := Level.configShow.givens _ } .configShow = _
    rw [commandOf?, hfile]
    exact congrArg (fun f : Option OutputFormat => some (Command.showSettings file (f.getD .text))) <|
      pick?_givens (k := .showFormat) hs (by decide) (by rintro ⟨⟩ a <;> simp) (fun _ => rfl)
        (x := some format) rfl

/-- Options of an outer level count unless they are given further inside. -/
theorem innermost_cons {l : Level} {p : Progress} {inner : Levels} {o : OptionName}
    (hinner : ∀ q ∈ inner, ∀ g ∈ q.2.given, g.name ≠ o) :
    innermost ((l, p) :: inner) o =
      if p.given.filter (fun g => g.name == o) = [] then [] else p.given := by
  have hnone : (inner.reverse.find? fun q => q.2.given.any fun g => g.name == o) = none := by
    simpa [List.find?_eq_none] using hinner
  rw [innermost, List.reverse_cons, List.find?_append, hnone, Option.none_or, List.find?_singleton]
  by_cases hp : p.given.any (fun g => g.name == o) = true
  · rw [if_pos hp, if_neg]
    simpa using hp
  · rw [if_neg hp, if_pos]
    simpa using hp

/-- The options that every command takes are given at the start only. -/
theorem innermost_levels (c : CommonOptions) {d : Command} (hd : d.IsExpressible) {o : OptionName}
    (ho : o ∈ Level.top.options) (hcommand : commandGiven d o = []) :
    innermost (allLevelsOf c d) o =
      if commonGiven c o = [] then [] else Level.top.givens (commonGiven c) := by
  have hnone : ∀ g ∈ (progressOf d).given, g.name ≠ o := by
    have hgivens : (progressOf d).given = (levelOf d).givens (commandGiven d) := by
      cases d <;> rfl
    rw [hgivens]
    rintro g hg rfl
    have hmem := ((mem_givens_iff (isSelection_commandGiven hd)).mp hg).2
    rw [hcommand] at hmem
    nomatch hmem
  have hinner : ∀ q ∈ levelsOf d, ∀ g ∈ q.2.given, g.name ≠ o := by
    cases d with
    | check | init => exact List.forall_mem_singleton.mpr hnone
    | validateSettings | showSettings =>
      exact List.forall_mem_cons.mpr ⟨List.forall_mem_nil _, List.forall_mem_singleton.mpr hnone⟩
  rw [allLevelsOf, innermost_cons hinner, filter_givens (isSelection_commonGiven c) ho]

/-- A switch that every command takes is on iff it is given at the start. -/
theorem isEmpty_innermost (c : CommonOptions) {d : Command} (hd : d.IsExpressible) {g : Given}
    (ho : g.name ∈ Level.top.options) (hcommand : commandGiven d g.name = []) {b : Bool}
    (hb : commonGiven c g.name = if b then [g] else []) :
    (!(innermost (allLevelsOf c d) g.name).isEmpty) = b := by
  rw [innermost_levels c hd ho hcommand]
  cases b with
  | true =>
    have hmem : g ∈ Level.top.givens (commonGiven c) :=
      (mem_givens_iff (isSelection_commonGiven c)).mpr ⟨ho, by rw [hb]; exact List.mem_cons_self⟩
    rw [hb, if_pos rfl, if_neg (List.cons_ne_nil _ _),
      List.isEmpty_eq_false_iff.mpr (List.ne_nil_of_mem hmem)]
    rfl
  | false =>
    rw [hb]
    rfl

attribute [ext] CommonOptions

/-- The options that every command takes are read back. -/
theorem commonOptions_levels {c : CommonOptions} (hc : c.verbosity ≤ maxVerbosity) {d : Command}
    (hd : d.IsExpressible) : commonOptions (allLevelsOf c d) = c := by
  have hs := isSelection_commonGiven c
  ext1
  case verbosity =>
    have hcount : (Level.top.givens (commonGiven c)).count .verbose = c.verbosity := by
      rw [← List.count_filter (p := fun g => g.name == .verbose) rfl, filter_givens hs (by decide)]
      exact List.count_replicate_self
    show min maxVerbosity (List.count _ _) = _
    rw [innermost_levels c hd (by decide) (by cases d <;> rfl)]
    split
    · next hnone =>
      have hzero : c.verbosity = 0 := by simpa [commonGiven] using hnone
      rw [hzero]
      rfl
    · rw [hcount, Nat.min_eq_right hc]
  case quiet => exact isEmpty_innermost (g := .quiet) c hd (by decide) (by cases d <;> rfl) rfl
  case colour =>
    show (pick? _ (innermost _ _)).getD _ = _
    have hgiven : commonGiven c .colour ≠ [] := List.cons_ne_nil _ _
    rw [innermost_levels c hd (by decide) (by cases d <;> rfl), if_neg hgiven]
    exact congrArg (fun m : Option ColourMode => m.getD .auto) <|
      pick?_givens (k := .colour) hs (by decide) (by rintro ⟨⟩ a <;> simp) (fun _ => rfl)
        (x := some c.colour) rfl
  case noConfig =>
    exact isEmpty_innermost (g := .noConfig) c hd (by decide) (by cases d <;> rfl) rfl

theorem getLast?_levelsOf (c : Command) : (levelsOf c).getLast? = some (levelOf c, progressOf c) := by
  cases c <;> rfl

/-- What arguments can ask for can be written as arguments, and it is read back from them. -/
theorem parse_arguments {c : CommandLine} (h : c.IsExpressible) : parse (arguments c) = .ok c := by
  have hlevels : ofLevels? (allLevelsOf c.common c.command) = some c := by
    rw [ofLevels?, commonOptions_levels h.verbosity h.command, allLevelsOf, List.getLast?_cons,
      getLast?_levelsOf]
    show (commandOf? _ _).bind _ = _
    rw [commandOf?_progressOf h.command]
    rfl
  rw [parse, readLevels_top h.command]
  show orError .missingCommand (ofLevels? _) = _
  rw [hlevels]
  rfl

/-- A command line whose values look like options, commands and separators. -/
def deceptiveLine : CommandLine where
  common := { verbosity := 2, colour := .never }
  command := .check
    { paths := [⟨"--"⟩, ⟨"-v"⟩, ⟨"init"⟩]
      config := some ⟨"=x"⟩
      method := some "--suffix=.sql"
      suffix := some "-"
      exclude := ["check", "", "--"]
      format := .json
      output := some ⟨"help"⟩
      jobs := some 12 }

/-- Nothing is taken for what it looks like. -/
theorem deceptiveLine_parse_arguments :
    deceptiveLine.IsExpressible ∧
      parse ["--verbose", "--verbose", "--color=never", "check", "--config==x",
        "--method=--suffix=.sql", "--suffix=-", "--exclude=check", "--exclude=", "--exclude=--",
        "--format=json", "--output=help", "--jobs=12", "--", "--", "-v", "init"] =
      .ok deceptiveLine := by
  have hexpressible : deceptiveLine.IsExpressible :=
    ⟨by decide, by decide, by decide, by decide, by decide, by decide⟩
  exact ⟨hexpressible, parse_arguments hexpressible⟩

end CommandLine

end MigrationLint
