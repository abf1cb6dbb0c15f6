import EditionCheck.CommandLine.Program
import EditionCheck.Proofs.FirstFailure
import EditionCheck.Proofs.WalkedPaths

/-!
# The exit status

The program composes its status from its settings, the paths that its patterns select, the texts at
these paths and their verdicts. Where the streams take everything that is printed, none of the ways in
which a run is presented plays a part in it. It ends with a status of its own where it crashes before it
has settings.

* `loadFor_fixed` — the settings are those of the environment and a file `.env`, without any effect;
* `World.check_fixed` — so a check over files that do not change is a check with these settings;
* `sound_runStages_iff` — no stage of a run fails by itself just when all patterns can be expanded and
  all files be read;
* `run_crashed`, `run_misconfigured` and `run_configured` — what a run does without settings and with
  settings that are wrong, and its status with settings that are right;
* `status_of_run` — the status is `2`, `1` or `0` by what is wrong with the settings, the files, and the
  verdicts, in this order, and `101` if there are no settings.
-/

set_option autoImplicit false

namespace EditionCheck

open EditionCheck.Files EditionCheck.Log EditionCheck.Settings EditionCheck.Text

/-! ## Settings -/

section

variable {m : Type → Type} [Monad m] [LawfulMonad m] (files : Access Id)

theorem findFile_fixed (directories : List (List UInt8)) :
    (findFile (files.fixed : Access m) directories) = pure (findFile files directories).run := by
  induction directories with
  | nil => rfl
  | cons directory rest ih =>
    simp only [findFile, kind_fixed, pure_bind, Id.run_bind]
    generalize (files.kind (join directory fileName)).run = found
    split
    · rfl
    · exact ih
    · exact ih
    · rfl

/-- The settings that a run finds in its environment and in a file `.env`, or how it crashes there. -/
def settingsIn (directory : Option (List UInt8)) (env : Environment) : Except Crash Environment :=
  match directory with
  | some directory => (loadFor files directory env).run
  | none => .ok env

theorem loadFor_fixed (directory : List UInt8) (env : Environment) :
    (loadFor (files.fixed : Access m) directory env)
      = pure (settingsIn files (some directory) env) := by
  simp only [loadFor, findFile_fixed, read_fixed, pure_bind, settingsIn, Id.run_bind]
  cases (findFile files (ancestors directory)).run with
  | none => rfl
  | some path =>
    dsimp only
    rw [Id.run_bind]
    cases (files.read path).run <;> rfl

/-- The settings are those of the environment, or come of a file. -/
theorem settingsIn_cases (directory : Option (List UInt8)) (env : Environment) :
    settingsIn files directory env = .ok env ∨ ∃ bytes, settingsIn files directory env = load env bytes := by
  cases directory with
  | none => exact .inl rfl
  | some directory =>
    simp only [settingsIn, loadFor, Id.run_bind]
    split
    · exact .inl rfl
    · rw [Id.run_bind]
      split
      · exact .inr ⟨_, rfl⟩
      · exact .inl rfl

/-- A variable of the environment is not changed by the file. -/
theorem text?_settingsIn {directory : Option (List UInt8)} {env settings : Environment}
    {name value : List Char} (h : env.text? name = some value)
    (hsettings : settingsIn files directory env = .ok settings) : settings.text? name = some value := by
  rcases settingsIn_cases files directory env with henv | ⟨bytes, hload⟩
  · rw [henv] at hsettings
    exact Except.ok.inj hsettings ▸ h
  · exact load_kept h (hload.symm.trans hsettings)

end

/-- A text names no format. -/
theorem ofName?_eq_none_iff {value : List Char} :
    Format.ofName? value = none ↔ String.ofList (lowerCase value) ∉ ["text", "human", "json"] := by
  simp only [Format.ofName?, List.mem_cons, List.not_mem_nil, or_false, not_or]
  split
  · next h =>
    rcases Bool.or_eq_true_iff.1 h with h | h <;> simp [beq_iff_eq.1 h]
  · next h =>
    simp only [Bool.or_eq_true, beq_iff_eq, not_or] at h
    split
    · next hj => simp [beq_iff_eq.1 hj]
    · next hj =>
      rw [beq_iff_eq] at hj
      exact iff_of_true rfl ⟨h.1, h.2, hj⟩

/-- Settings ask for a format that there is not. -/
def Misconfigured (settings : Environment) : Prop :=
  ∃ value, settings.text? Options.formatVariable = some value
    ∧ String.ofList (lowerCase value) ∉ ["text", "human", "json"]

/-- Settings are refused just when they ask for a format that there is not. -/
theorem misconfigured_iff {settings : Environment} :
    Misconfigured settings ↔ ∃ e, Options.ofEnvironment settings = .error e := by
  simp only [Misconfigured, Options.ofEnvironment_error_iff, Options.formatOf, ← ofName?_eq_none_iff]
  cases settings.text? Options.formatVariable with
  | none => simp
  | some value => cases h : Format.ofName? value <;> simp [h]

/-! ## Runs without failures of their own -/

/-- A course ends well just when no stage that it meets fails by itself. -/
theorem Course.Meets.sound_iff {α : Type} {files : Access Id} {c : Course α} {stages : List Stage}
    (h : c.Meets files stages) : Stage.Sound files stages ↔ ∃ a, c.outcome = .ok a := by
  cases h with
  | through a houtcome hsound => exact iff_of_true hsound ⟨a, houtcome⟩
  | stopped e before stage after houtcome hstages _ hfault =>
    refine iff_of_false ?_ ?_
    · intro hsound
      exact absurd hfault (hsound.fault?_ne hstages e)
    · rintro ⟨a, ha⟩
      rw [houtcome] at ha
      cases ha

/-- A course tells nothing but notices of the stages that it meets. -/
theorem Course.Meets.mem_notices {α : Type} {files : Access Id} {c : Course α} {stages : List Stage}
    (h : c.Meets files stages) {n : Notice} (hn : n ∈ c.notices) : n ∈ Stage.notices stages := by
  cases h with
  | through a _ _ hnotices => exact hnotices ▸ hn
  | stopped e before stage after _ hstages _ _ hnotices =>
    rw [hstages, Stage.notices_append]
    exact List.mem_append_left _ (hnotices ▸ hn)

/-- A pattern of a request cannot be expanded, or a file that its patterns select be read. -/
def Unreadable (files : Access Id) (request : CheckRequest) : Prop :=
  (∃ p ∈ request.patterns, ∃ e, files.expand p = .error e)
    ∨ ∃ path ∈ request.patterns.flatMap files.selected, ∃ fault, files.textAt path = .error fault

/-- The verdict on a file that the patterns of a request select is not to pass. -/
def Rejected (files : Access Id) (request : CheckRequest) : Prop :=
  ∃ path ∈ request.patterns.flatMap files.selected, ∃ text, files.textAt path = .ok text
    ∧ validate text (.ofToken request.token) ≠ .pass

section

variable {files : Access Id} {request : CheckRequest}

theorem fault?_expand {pattern : String} :
    (Stage.expand pattern).fault? files = none ↔ ∀ e, files.expand pattern ≠ .error e := by
  rw [Stage.fault?]
  cases files.expand pattern <;> simp

theorem fault?_read {path : List UInt8} :
    (Stage.read path).fault? files = none ↔ ∀ fault, files.textAt path ≠ .error fault := by
  rw [Stage.fault?]
  cases files.textAt path <;> simp

/-- No stage of a run fails by itself just when every pattern can be expanded and every file be read. -/
theorem sound_runStages_iff :
    Stage.Sound files (runStages files request) ↔ ¬Unreadable files request := by
  simp only [Unreadable, not_or, not_exists, not_and, ← fault?_expand, ← fault?_read, Stage.Sound,
    runStages, patternStages, fileStages, List.mem_append, List.mem_flatMap, List.mem_cons,
    List.not_mem_nil, or_false]
  constructor
  · intro h
    refine ⟨fun p hp => h _ (.inl ⟨p, hp, .inl rfl⟩), ?_⟩
    rintro path ⟨p, hp, hpath⟩
    exact h _ (.inl ⟨p, hp, .inr ⟨path, hpath, .inl rfl⟩⟩)
  · rintro ⟨hexpand, hread⟩ stage (⟨p, hp, rfl | ⟨path, hpath, rfl | rfl⟩⟩ | rfl)
    · exact hexpand p hp
    · exact hread path ⟨p, hp, hpath⟩
    · rfl
    · rfl

/-- If all files can be read, the status of the full report is `0` just when none is rejected. -/
theorem exitCode_fullReport (h : ¬Unreadable files request) :
    (fullReport files request).exitCode = 0 ↔ ¬Rejected files request := by
  rw [Report.exitCode_eq_zero_iff, fullReport, List.map_eq_nil_iff, List.filter_eq_nil_iff]
  simp only [Rejected, not_exists, not_and]
  refine forall₂_congr fun path hpath => ?_
  cases htext : files.textAt path with
  | error fault => exact absurd (.inr ⟨path, hpath, fault, htext⟩) h
  | ok text =>
    rw [Access.verdictOf, files.textOf_of_ok htext]
    cases hv : validate text (.ofToken request.token) <;> simp [Verdict.isPass, hv]

/-- If all files can be read, the status of the full report says whether one is rejected. -/
theorem exitCode_cases (h : ¬Unreadable files request) :
    (fullReport files request).exitCode = 1 ∧ Rejected files request
      ∨ (fullReport files request).exitCode = 0 ∧ ¬Rejected files request := by
  have hzero := exitCode_fullReport h
  by_cases hrejected : Rejected files request
  · refine .inl ⟨?_, hrejected⟩
    rw [Report.exitCode] at hzero ⊢
    split
    · next hsuccess =>
      rw [if_pos hsuccess] at hzero
      exact absurd hrejected (hzero.1 rfl)
    · rfl
  · exact .inr ⟨hzero.2 hrejected, hrejected⟩

/-- A run ends early just when it meets something that cannot be read, and else with the full report. -/
theorem outcome_runCourse (files : Access Id) (request : CheckRequest) :
    (Unreadable files request ∧ ∃ e, (runCourse files request).outcome = .error e)
      ∨ (¬Unreadable files request
        ∧ (runCourse files request).outcome = .ok (fullReport files request)) := by
  have hsound := (meets_runCourse files request).sound_iff
  rw [sound_runStages_iff] at hsound
  cases h : (runCourse files request).outcome with
  | error e => exact .inl ⟨by simpa [h] using hsound, e, rfl⟩
  | ok report => exact .inr ⟨hsound.2 ⟨report, h⟩, by rw [runCourse_outcome_ok h]⟩

end

/-! ## Notices that can be written as a whole -/

/-- A notice of a file can be written as a whole. -/
theorem fault_verdictNotice (style : Style) (grammar : Grammar) (path : List UInt8) (verdict : Verdict) :
    (style.printed (verdictNotice grammar path verdict)).fault = none := by
  unfold verdictNotice
  cases hf : style.options.format <;> split <;> simp [Style.printed, hf]

/-- Bytes are reported as a text just when they are one. -/
theorem isSome_text?_ofBytes (path : List UInt8) :
    (Path.ofBytes path).text?.isSome ↔ IsText path := by
  rw [Path.text?_ofBytes, Option.isSome_iff_exists]
  exact exists_congr fun cs => Utf8.decode?_eq_some_iff_encode

section

variable {files : Access Id} {request : CheckRequest}

/-- Where all listed names are texts, so are the paths that patterns select. -/
theorem isText_of_mem_selected (hnames : files.Lists IsText) {patterns : List String} :
    ∀ path ∈ patterns.flatMap files.selected, IsText path := by
  intro path hpath
  obtain ⟨p, -, hselected⟩ := List.mem_flatMap.1 hpath
  have hwords (word : List Char) (_ : word ⊆ p.toList) := isText_encode word
  have hwalked := walked_expand composable_isText hnames hwords
  rw [Access.selected] at hselected
  cases he : files.expand p with
  | error e =>
    rw [he] at hselected
    cases hselected
  | ok paths =>
    rw [he] at hselected hwalked
    exact hwalked path hselected

/-- The notices of a run can be written as a whole if its paths are texts. -/
theorem fault_of_mem_notices (hpaths : ∀ path ∈ request.patterns.flatMap files.selected, IsText path)
    (style : Style) {n : Notice} (h : n ∈ (runCourse files request).notices) :
    (style.printed n).fault = none := by
  have hn := (meets_runCourse files request).mem_notices h
  rw [runStages, Stage.notices_append] at hn
  rcases List.mem_append.1 hn with hn | hn
  · have hnot := not_finished_of_patternStages hn
    cases n with
    | finished report => exact absurd rfl (hnot report)
    | passed path grammar => cases hf : style.options.format <;> simp [Style.printed, hf]
    | failed path grammar => cases hf : style.options.format <;> simp [Style.printed, hf]
  · rw [List.mem_singleton.1 hn]
    cases hf : style.options.format with
    | text => simp [Style.printed, hf]
    | json =>
      have hcomplete : (fullReport files request).json.complete = true := by
        rw [Report.json_complete, fullReport, List.all_map, List.all_eq_true]
        exact fun path hpath => (isSome_text?_ofBytes path).2 (hpaths path (List.mem_filter.1 hpath).1)
      simp [Style.printed, hf, Style.jsonSummary, hcomplete]

end

/-! ## Files that do not change -/

namespace CommandLine

/-- A check with the settings that it finds, where the files do not change. -/
theorem World.check_fixed {m : Type → Type} [Monad m] [LawfulMonad m] (world : World m)
    (files : Access Id) (directory : Option (List UInt8)) (hfiles : world.files = files.fixed)
    (hdirectory : world.directory = pure directory) (env : Environment) (i : Invocation) :
    world.check env i = (do
      (filterFor env i.logLevel).2.forM fun line => world.say .err (line ++ "\n")
      match settingsIn files directory env with
      | .error crash => world.crash crash
      | .ok settings =>
        match Options.ofEnvironment settings with
        | .error e => world.abort (forcesColor settings) (.configuration e)
        | .ok options =>
          let color := (i.adjust options).color && forcesColor settings
          match ← ((world.host (filterFor env i.logLevel).1).check
            (Style.reporter ⟨i.adjust options, color⟩ world.write) ⟨i.token, i.patterns⟩).run with
          | .ok report => return report.exitCode
          | .error e => world.abort color e) := by
  unfold World.check
  refine bind_congr fun _ => ?_
  rw [hdirectory, pure_bind]
  cases directory with
  | none =>
    dsimp only
    rw [pure_bind]
    rfl
  | some path =>
    dsimp only
    rw [hfiles, loadFor_fixed, pure_bind]
    rfl

/-! ## A world that works -/

/-- What has been printed, and the lines of the log. -/
structure Transcript where
  printed : List (Channel × String) := []
  logged : List String := []

namespace Transcript

/-- The transcript with a text printed. -/
def print (t : Transcript) (channel : Channel) (text : String) : Transcript :=
  { t with printed := t.printed ++ [(channel, text)] }

/-- The transcript with a line in the log. -/
def note (t : Transcript) (line : String) : Transcript := { t with logged := t.logged ++ [line] }

/-- The transcript with some lines printed as errors. -/
def complain (t : Transcript) (lines : List String) : Transcript :=
  { t with printed := t.printed ++ lines.map fun line => (.err, line ++ "\n") }

theorem complain_concat (t : Transcript) (lines : List String) (line : String) :
    t.complain (lines ++ [line]) = (t.complain lines).print .err (line ++ "\n") := by
  simp [complain, print]

end Transcript

/-- A world in which the files do not change and everything can be printed. -/
def World.working (files : Access Id) (directory : Option (List UInt8)) :
    World (StateM Transcript) where
  files := files.fixed
  directory := pure directory
  write channel text := ExceptT.mk fun t => (.ok (), t.print channel text)
  record line := fun t => ((), t.note line)

section

variable (files : Access Id) (directory : Option (List UInt8))

theorem complain_working (lines : List String) (t : Transcript) :
    (lines.forM fun line => (World.working files directory).say .err (line ++ "\n")).run t
      = ((), t.complain lines) := by
  induction lines generalizing t with
  | nil =>
    show ((), t) = _
    rw [Transcript.complain, List.map_nil, List.append_nil]
  | cons line lines ih =>
    refine (ih (t.print .err (line ++ "\n"))).trans ?_
    rw [Transcript.complain, Transcript.complain, Transcript.print, List.map_cons, List.append_assoc]
    rfl

theorem writePieces_working (pieces : List (Channel × String)) (t : Transcript) :
    ∃ t', (Style.writePieces (World.working files directory).write pieces).run.run t
      = (.ok (), t') := by
  induction pieces generalizing t with
  | nil => exact ⟨t, rfl⟩
  | cons piece rest ih => exact ih (t.print piece.1 piece.2)

/-- Where everything can be printed, a notice is accepted if all of it can be written. -/
theorem reporter_accepts {style : Style} {n : Notice} (h : (style.printed n).fault = none)
    (t : Transcript) :
    (runFrom (style.reporter (World.working files directory).write n) t).1 = .ok () := by
  obtain ⟨t', ht'⟩ := writePieces_working files directory (style.printed n).pieces t
  simp only [Style.reporter, h, bind_pure_unit]
  exact congrArg (fun r => Except.mapError Obstacle.output r.1) ht'

/-- Where everything can be printed, a run that prints ends as its course does, if its notices can be
written as a whole. -/
theorem check_console (filter : Filter) {style : Style} {request : CheckRequest}
    (hfault : ∀ n ∈ (runCourse files request).notices, (style.printed n).fault = none)
    (t : Transcript) :
    (runFrom (((World.working files directory).host filter).check
        (style.reporter (World.working files directory).write) request) t).1
      = (runCourse files request).outcome := by
  have hhost : (World.working files directory).host filter
      = Host.over files ((World.working files directory).host filter).log := rfl
  rw [hhost, check_over_eq_follow]
  exact Course.follow_of_accepting
    (fun n hn => reporter_accepts files directory (hfault n hn)) t

section

variable {env : Environment} {arguments : List String} {i : Invocation}

theorem check_working (env : Environment) (i : Invocation) :
    (World.working files directory).check env i = (do
      let world := World.working files directory
      (filterFor env i.logLevel).2.forM fun line => world.say .err (line ++ "\n")
      match settingsIn files directory env with
      | .error crash => world.crash crash
      | .ok settings =>
        match Options.ofEnvironment settings with
        | .error e => world.abort (forcesColor settings) (.configuration e)
        | .ok options =>
          let color := (i.adjust options).color && forcesColor settings
          match ← ((world.host (filterFor env i.logLevel).1).check
            (Style.reporter ⟨i.adjust options, color⟩ world.write) ⟨i.token, i.patterns⟩).run with
          | .ok report => return report.exitCode
          | .error e => world.abort color e) :=
  (World.working files directory).check_fixed files directory rfl rfl env i

/-- Without settings, nothing is printed but complaints and the wording of the crash. -/
theorem run_crashed (h : Command.ofArguments env arguments = .ok (.check i)) {crash : Crash}
    (hcrash : settingsIn files directory env = .error crash) (t : Transcript) :
    ((World.working files directory).run env arguments).run t
      = (101, (t.complain (filterFor env i.logLevel).2).print .err (crash.message ++ "\n")) := by
  rw [World.run, h]
  simp only [check_working, hcrash]
  rw [StateT.run_bind, complain_working]
  rfl

variable {settings : Environment} (hsettings : settingsIn files directory env = .ok settings)
include hsettings

/-- With settings that are wrong, nothing is printed but complaints and the error. -/
theorem run_misconfigured (h : Command.ofArguments env arguments = .ok (.check i)) {e : OptionsError}
    (hwrong : Options.ofEnvironment settings = .error e) (t : Transcript) :
    ((World.working files directory).run env arguments).run t
      = (2, (t.complain (filterFor env i.logLevel).2).print .err
          (Color.red.paint (forcesColor settings) "✖ ecma-v:" ++ " "
            ++ (Obstacle.configuration e).message ++ "\n")) := by
  rw [World.run, h]
  simp only [check_working, hsettings, hwrong]
  rw [StateT.run_bind, complain_working]
  rfl

/-- With settings that are right, the status is that of the course of the run, if its paths are texts. -/
theorem run_configured (h : Command.ofArguments env arguments = .ok (.check i)) {options : Options}
    (hright : Options.ofEnvironment settings = .ok options)
    (hpaths : ∀ path ∈ i.patterns.flatMap files.selected, IsText path) (t : Transcript) :
    (((World.working files directory).run env arguments).run t).1
      = match (runCourse files ⟨i.token, i.patterns⟩).outcome with
        | .ok report => report.exitCode
        | .error _ => 2 := by
  rw [World.run, h]
  simp only [check_working, hsettings, hright]
  rw [StateT.run_bind, complain_working]
  generalize t.complain (filterFor env i.logLevel).2 = t'
  let style : Style := ⟨i.adjust options, (i.adjust options).color && forcesColor settings⟩
  have hfaults : ∀ n ∈ (runCourse files ⟨i.token, i.patterns⟩).notices, (style.printed n).fault = none :=
    fun n hn => fault_of_mem_notices hpaths style hn
  rw [← check_console files directory (filterFor env i.logLevel).1 hfaults t', runFrom]
  show (StateT.run (_ >>= _ : StateM Transcript Nat) t').1 = _
  rw [StateT.run_bind]
  generalize StateT.run (ExceptT.run _) t' = done
  obtain ⟨r, t''⟩ := done
  cases r <;> rfl

end

/-- The status of a check with settings, by what is wrong with them and with its files. -/
theorem status_cases (hnames : files.Lists IsText) {env settings : Environment}
    (hsettings : settingsIn files directory env = .ok settings) {arguments : List String}
    {i : Invocation} (h : Command.ofArguments env arguments = .ok (.check i)) (t : Transcript) :
    let status := (((World.working files directory).run env arguments).run t).1
    Misconfigured settings ∧ status = 2
      ∨ ¬Misconfigured settings
        ∧ (Unreadable files ⟨i.token, i.patterns⟩ ∧ status = 2
          ∨ ¬Unreadable files ⟨i.token, i.patterns⟩
            ∧ status = (fullReport files ⟨i.token, i.patterns⟩).exitCode) := by
  intro status
  cases hoptions : Options.ofEnvironment settings with
  | error e =>
    refine .inl ⟨misconfigured_iff.2 ⟨e, hoptions⟩, ?_⟩
    exact congrArg Prod.fst (run_misconfigured files directory hsettings h hoptions t)
  | ok options =>
    refine .inr ⟨?_, ?_⟩
    · rw [misconfigured_iff, hoptions]
      rintro ⟨e, he⟩
      cases he
    · have hrun : status = _ := run_configured files directory hsettings h hoptions
        (isText_of_mem_selected hnames) t
      rcases outcome_runCourse files ⟨i.token, i.patterns⟩ with ⟨hun, e, he⟩ | ⟨hread, hok⟩
      · exact .inl ⟨hun, by rw [hrun, he]⟩
      · exact .inr ⟨hread, by rw [hrun, hok]⟩

/-- With settings, the status of a check is one of three. -/
theorem status_trichotomy (hnames : files.Lists IsText) {env settings : Environment}
    (hsettings : settingsIn files directory env = .ok settings) {arguments : List String}
    {i : Invocation} (h : Command.ofArguments env arguments = .ok (.check i)) (t : Transcript) :
    let request : CheckRequest := ⟨i.token, i.patterns⟩
    let status := (((World.working files directory).run env arguments).run t).1
    status = 2 ∧ (Misconfigured settings ∨ Unreadable files request)
      ∨ status = 1 ∧ ¬(Misconfigured settings ∨ Unreadable files request) ∧ Rejected files request
      ∨ status = 0 ∧ ¬(Misconfigured settings ∨ Unreadable files request)
        ∧ ¬Rejected files request := by
  intro request status
  rcases status_cases files directory hnames hsettings h t with
    ⟨hwrong, htwo⟩ | ⟨hright, ⟨hun, htwo⟩ | ⟨hread, hreport⟩⟩
  · exact .inl ⟨htwo, .inl hwrong⟩
  · exact .inl ⟨htwo, .inr hun⟩
  · have hnone : ¬(Misconfigured settings ∨ Unreadable files request) := not_or.2 ⟨hright, hread⟩
    rcases exitCode_cases hread with ⟨hcode, hrejected⟩ | ⟨hcode, hrejected⟩
    · exact .inr (.inl ⟨hreport.trans hcode, hnone, hrejected⟩)
    · exact .inr (.inr ⟨hreport.trans hcode, hnone, hrejected⟩)

/-- With settings that are right, the status of a check depends on its files, version and patterns only. -/
theorem status_of_request (hnames : files.Lists IsText) {env settings : Environment}
    (hsettings : settingsIn files directory env = .ok settings) (hright : ¬Misconfigured settings)
    {arguments : List String} {i : Invocation}
    (h : Command.ofArguments env arguments = .ok (.check i)) (t : Transcript) :
    Unreadable files ⟨i.token, i.patterns⟩
        ∧ (((World.working files directory).run env arguments).run t).1 = 2
      ∨ ¬Unreadable files ⟨i.token, i.patterns⟩
        ∧ (((World.working files directory).run env arguments).run t).1
          = (fullReport files ⟨i.token, i.patterns⟩).exitCode := by
  rcases status_cases files directory hnames hsettings h t with ⟨hwrong, -⟩ | ⟨-, hstatus⟩
  · exact absurd hwrong hright
  · exact hstatus

end

/-- **The exit status of a check.** For files that do not change, whose names are texts, and streams that
take everything: if the settings can be loaded, the status is `2` just when they ask for a format that
there is not, or a pattern cannot be expanded, or a selected file cannot be read as text; otherwise it is
`1` just when the verdict on a selected file is not to pass, and `0` if no verdict is such. The format of
the environment wins over the one of the file `.env`. If the settings are wrong, nothing but error lines
is printed, and no file is looked at; if they are not, the status depends on the files, the version and
the patterns alone. Where loading the settings crashes, the status is `101`. -/
theorem status_of_run (files : Access Id) (hnames : files.Lists IsText)
    (directory : Option (List UInt8)) (env : Environment) (arguments : List String) (i : Invocation)
    (h : Command.ofArguments env arguments = .ok (.check i)) (t : Transcript) :
    let request : CheckRequest := ⟨i.token, i.patterns⟩
    let run := ((World.working files directory).run env arguments).run t
    match settingsIn files directory env with
    | .error crash =>
      run = (101, t.complain ((filterFor env i.logLevel).2 ++ [crash.message]))
    | .ok settings =>
      (run.1 = 2 ↔ Misconfigured settings ∨ Unreadable files request)
        ∧ (run.1 = 1 ↔ ¬(Misconfigured settings ∨ Unreadable files request) ∧ Rejected files request)
        ∧ (run.1 = 0 ↔ ¬(Misconfigured settings ∨ Unreadable files request) ∧ ¬Rejected files request)
        ∧ (∀ value, env.text? Options.formatVariable = some value →
            settings.text? Options.formatVariable = some value)
        ∧ (Misconfigured settings → ∃ e, Options.ofEnvironment settings = .error e
            ∧ run.2 = t.complain ((filterFor env i.logLevel).2
              ++ [Color.red.paint (forcesColor settings) "✖ ecma-v:" ++ " "
                ++ (Obstacle.configuration e).message]))
        ∧ ∀ directory' env' settings' arguments' j u,
            Command.ofArguments env' arguments' = .ok (.check j) →
            j.token = i.token → j.patterns = i.patterns →
            settingsIn files directory' env' = .ok settings' →
            ¬Misconfigured settings → ¬Misconfigured settings' →
            (((World.working files directory').run env' arguments').run u).1 = run.1 := by
  intro request run
  cases hsettings : settingsIn files directory env with
  | error crash =>
    have hrun : run = _ := run_crashed files directory h hsettings t
    show run = _
    rw [hrun, Transcript.complain_concat]
  | ok settings =>
    have hthree := status_trichotomy files directory hnames hsettings h t
    refine ⟨?_, ?_, ?_, fun value hv => text?_settingsIn files hv hsettings, ?_, ?_⟩
    · grind
    · grind
    · grind
    · intro hwrong
      obtain ⟨e, he⟩ := misconfigured_iff.1 hwrong
      refine ⟨e, he, ?_⟩
      have hrun : run = _ := run_misconfigured files directory hsettings h he t
      rw [hrun, Transcript.complain_concat]
    · intro directory' env' settings' arguments' j u hj htoken hpatterns hsettings' hright hright'
      have hother := status_of_request files directory' hnames hsettings' hright' hj u
      rw [htoken, hpatterns] at hother
      rcases status_of_request files directory hnames hsettings hright h t with
        ⟨hun, htwo⟩ | ⟨hread, hreport⟩
      · rcases hother with ⟨-, htwo'⟩ | ⟨hread', -⟩
        · exact htwo'.trans htwo.symm
        · exact absurd hun hread'
      · rcases hother with ⟨hun', -⟩ | ⟨-, hreport'⟩
        · exact absurd hun' hread
        · exact hreport'.trans hreport.symm

/-- A file that fails, and a directory behind it. -/
def fileAndDirectory : Tree := ⟨[
  ([Utf8.encode "bad.js".toList], .file [99, 111, 110, 115, 116, 32, 120, 61, 49]),
  ([Utf8.encode "d.js".toList], .directory)]⟩

/-- A directory in place of a file makes the status `2`, also behind a file that fails. -/
theorem status_of_run_directory :
    let files : Access Id := fileAndDirectory.access []
    let arguments := ["check", "ecma5", "-v", "bad.js", "d.js"]
    let i : Invocation := ⟨none, false, true, false, "ecma5", ["bad.js", "d.js"]⟩
    files.Lists IsText ∧ Command.ofArguments .empty arguments = .ok (.check i)
      ∧ (((World.working files none).run .empty arguments).run {}).1 = 2 := by
  intro files arguments i
  have hnames : ∀ e ∈ fileAndDirectory.entries, ∀ n ∈ e.1, IsText n :=
    List.forall_mem_cons.2 ⟨List.forall_mem_singleton.2 (isText_encode _),
      List.forall_mem_singleton.2 (List.forall_mem_singleton.2 (isText_encode _))⟩
  have hcommand : Command.ofArguments .empty arguments = .ok (.check i) := rfl
  have hselected : Utf8.encode "d.js".toList ∈ i.patterns.flatMap files.selected := by decide +kernel
  have hdirectory : files.textAt (Utf8.encode "d.js".toList) = .error .isDirectory := rfl
  have hstatus := status_of_run files (lists_access hnames []) none .empty arguments i hcommand {}
  exact ⟨lists_access hnames [], hcommand, hstatus.1.2 (.inr (.inr ⟨_, hselected, _, hdirectory⟩))⟩

/-- A file `.env` that gives a variable the character U+0000. -/
def nulAssignment : Tree := ⟨[([fileName], .file [65, 61, 0])]⟩

/-- So a check may end with a status above `2`, though all names are texts. -/
theorem status_beyond_fatal :
    ¬ ∀ (t : Tree) (current : Place) (arguments : List String) (i : Invocation),
      (∀ e ∈ t.entries, ∀ n ∈ e.1, IsText n) → Command.ofArguments .empty arguments = .ok (.check i) →
        (((World.working (t.access current) (some (Tree.pathOf current))).run .empty
          arguments).run {}).1 ≤ 2 := by
  intro hall
  have hnames : ∀ e ∈ nulAssignment.entries, ∀ n ∈ e.1, IsText n :=
    List.forall_mem_singleton.2 (List.forall_mem_singleton.2 (isText_encode _))
  have hstatus : (((World.working (nulAssignment.access []) (some (Tree.pathOf []))).run .empty
      ["check", "ecma5"]).run {}).1 = 101 := by decide +kernel
  have hle := hall nulAssignment [] ["check", "ecma5"] ⟨none, false, false, false, "ecma5", []⟩ hnames rfl
  rw [hstatus] at hle
  exact absurd hle (by decide)

end CommandLine

end EditionCheck
