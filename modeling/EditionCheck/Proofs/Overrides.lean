import EditionCheck.Proofs.Agreement

/-!
# Options that override the environment

An option of the command line decides in place of a variable of the environment: `--json` in place of
`ECMAV_FORMAT`, `--verbose` of `ECMAV_VERBOSE`, `--no-color` of `NO_COLOR`. Two environments that differ in
such a variable lead to one and the same run, unless the difference shows before the option is looked at:
through a file `.env` that refers to the variable or cannot be loaded on its account, in a format that there
is not, or in the colour of help.

* `Command.Overrides` — which variables a command does not need;
* `ofArguments_congr`, `filterFor_congr`, `forcesColor_congr` — what else a run takes from its environment;
* `adjusted_congr`, `settled_congr` — the options are the same, with or without the variable;
* `options_override` — so is the run, in every world.
-/

set_option autoImplicit false

namespace EditionCheck.CommandLine

open EditionCheck.Files EditionCheck.Log EditionCheck.Settings EditionCheck.Text

/-! ## Overridden variables -/

/-- The options of a check decide in place of a variable. -/
def Invocation.Overrides (i : Invocation) (v : List Char) : Prop :=
  i.json ∧ v = Options.formatVariable ∨ i.verbose ∧ v = Options.verboseVariable
    ∨ i.noColor ∧ v = Options.colorVariable

/-- The options of a command decide in place of a variable; help and the version need none. -/
def Command.Overrides (v : List Char) : Command → Prop
  | check i => i.Overrides v
  | _ => v = Options.formatVariable ∨ v = Options.verboseVariable ∨ v = Options.colorVariable

section

variable {v : List Char} {env env' : Environment}

theorem Command.Overrides.variable {command : Command} (h : command.Overrides v) :
    v = Options.formatVariable ∨ v = Options.verboseVariable ∨ v = Options.colorVariable := by
  cases command with
  | check i =>
    rcases h with ⟨-, h⟩ | ⟨-, h⟩ | ⟨-, h⟩
    · exact .inl h
    · exact .inr (.inl h)
    · exact .inr (.inr h)
  | showVersion => exact h
  | showHelp => exact h

/-- The name of such a variable has a character that is neither a letter nor a number. -/
theorem Command.Overrides.underscore {command : Command} (h : command.Overrides v) :
    ∃ c ∈ v, isAlphanumeric c = false := by
  rcases h.variable with rfl | rfl | rfl <;> exact ⟨'_', by decide, by decide +kernel⟩

/-- The other variables that a run asks for. -/
theorem Command.Overrides.ne {command : Command} (h : command.Overrides v) :
    logVariable ≠ v ∧ filterVariable ≠ v ∧ forceVariable ≠ v := by
  rcases h.variable with rfl | rfl | rfl <;> decide

/-! ## What else is taken from the environment -/

theorem levelFrom_congr (h : env.SameBut v env') (hv : logVariable ≠ v) (s : Seen) :
    levelFrom env s = levelFrom env' s := by
  rw [levelFrom, levelFrom, h logVariable hv, h.text? hv]

/-- The command line is read in the same way. -/
theorem ofArguments_congr (h : env.SameBut v env') (hv : logVariable ≠ v) (arguments : List String) :
    Command.ofArguments env arguments = Command.ofArguments env' arguments := by
  have hread : readCommand env arguments = readCommand env' arguments := by
    simp only [readCommand, levelFrom_congr h hv]
  rw [Command.ofArguments, Command.ofArguments, hread]

/-- The log is filtered in the same way. -/
theorem filterFor_congr (h : env.SameBut v env') (hv : filterVariable ≠ v) (level : Option String) :
    filterFor env level = filterFor env' level := by
  rw [filterFor, filterFor, h.text? hv]

/-- Colour is forced in the same way. -/
theorem forcesColor_congr (h : env.SameBut v env') (hv : forceVariable ≠ v) :
    forcesColor env = forcesColor env' := by
  rw [forcesColor, forcesColor, h.text? hv]

/-- Nothing forces colour in messages on the command line. -/
def Unforced (env : Environment) : Prop :=
  env.bytes? forceVariable = none ∨ env.bytes? forceVariable = some [48]

/-- Help is presented in the same way, unless colour that is forced may be switched off again. -/
theorem presentation_congr {command : Command} (hoverrides : command.Overrides v)
    (h : env.SameBut v env') (hunforced : v = Options.colorVariable → Unforced env) :
    Presentation.ofEnvironment env = Presentation.ofEnvironment env' := by
  obtain ⟨hlog, -, hforce⟩ := hoverrides.ne
  by_cases hv : Options.colorVariable = v
  · have hnone : env'.bytes? forceVariable = env.bytes? forceVariable := (h forceVariable hforce).symm
    rcases hunforced hv.symm with hunset | hzero
    · simp [Presentation.ofEnvironment, hnone, hunset, h logVariable hlog]
    · simp [Presentation.ofEnvironment, hnone, hzero, h logVariable hlog]
  · rw [Presentation.ofEnvironment, Presentation.ofEnvironment, h logVariable hlog,
      h forceVariable hforce, h Options.colorVariable hv]

/-! ## Options -/

/-- The options of a check: those of its settings, with what the command line says about them. -/
def Invocation.adjusted (i : Invocation) (settings : Environment) : Except OptionsError Options :=
  (Options.ofEnvironment settings).map i.adjust

theorem adjusted_eq (i : Invocation) (settings : Environment) :
    i.adjusted settings = (Options.formatOf settings).map fun format =>
      { verbose := i.verbose || (settings.text? Options.verboseVariable).any switchesOn
        format := if i.json then .json else format
        color := !i.noColor
          && !(settings.text? Options.colorVariable).any fun value => !value.isEmpty } := by
  rw [Invocation.adjusted, Options.ofEnvironment]
  cases Options.formatOf settings <;> rfl

theorem formatOf_congr (h : env.SameBut v env') (hv : Options.formatVariable ≠ v) :
    Options.formatOf env = Options.formatOf env' := by
  rw [Options.formatOf, Options.formatOf, h.text? hv]

/-- Settings that are not wrong have a format. -/
theorem exists_format (h : ¬Misconfigured env) : ∃ format, Options.formatOf env = .ok format := by
  cases hformat : Options.formatOf env with
  | ok format => exact ⟨format, rfl⟩
  | error e =>
    exact absurd (misconfigured_iff.2 ⟨e, Options.ofEnvironment_error_iff.2 hformat⟩) h

/-- **The options are the same with or without an overridden variable**, if no format is refused on its
account. -/
theorem adjusted_congr {i : Invocation} (hoverrides : i.Overrides v) (h : env.SameBut v env')
    (hright : v = Options.formatVariable → ¬Misconfigured env ∧ ¬Misconfigured env') :
    i.adjusted env = i.adjusted env' := by
  rw [adjusted_eq, adjusted_eq]
  rcases hoverrides with ⟨hjson, rfl⟩ | ⟨hverbose, rfl⟩ | ⟨hcolor, rfl⟩
  · obtain ⟨hright, hright'⟩ := hright rfl
    obtain ⟨format, hformat⟩ := exists_format hright
    obtain ⟨format', hformat'⟩ := exists_format hright'
    have hverbose : env.text? Options.verboseVariable = env'.text? Options.verboseVariable :=
      h.text? (by decide)
    have hcolor : env.text? Options.colorVariable = env'.text? Options.colorVariable :=
      h.text? (by decide)
    rw [hformat, hformat', hverbose, hcolor, hjson]
    rfl
  · have hcolor : env.text? Options.colorVariable = env'.text? Options.colorVariable :=
      h.text? (by decide)
    rw [formatOf_congr h (by decide), hcolor, hverbose]
    rfl
  · have hverbose : env.text? Options.verboseVariable = env'.text? Options.verboseVariable :=
      h.text? (by decide)
    rw [formatOf_congr h (by decide), hverbose, hcolor]
    rfl

/-- What a check takes from its settings: whether colour is forced, and the options. -/
def Invocation.settled (i : Invocation) (settings : Environment) :
    Bool × Except OptionsError Options :=
  (forcesColor settings, i.adjusted settings)

/-- Settings that agree but on an overridden variable settle a check in the same way. -/
theorem settled_congr {i : Invocation} (hoverrides : i.Overrides v) {x y : Except Crash Environment}
    (h : AgreeBut v x y)
    (hright : v = Options.formatVariable → ∀ settings, x = .ok settings ∨ y = .ok settings →
      ¬Misconfigured settings) :
    x.map i.settled = y.map i.settled := by
  cases h with
  | crashed crash => rfl
  | loaded hsame =>
    have hoverrides' : (Command.check i).Overrides v := hoverrides
    have hforce := hoverrides'.ne.2.2
    have hadjusted := adjusted_congr hoverrides hsame fun hv =>
      ⟨hright hv _ (.inl rfl), hright hv _ (.inr rfl)⟩
    exact congrArg Except.ok (Prod.ext (forcesColor_congr hsame hforce) hadjusted)

end

/-! ## Runs -/

section

variable {m : Type → Type} [Monad m]

/-- A check with what its settings settle, or with the crash where there are none. -/
def World.checkWith (w : World m) (i : Invocation) (filter : Filter × List String)
    (settled : Except Crash (Bool × Except OptionsError Options)) : m Nat := do
  filter.2.forM fun line => w.say .err (line ++ "\n")
  match settled with
  | .error crash => w.crash crash
  | .ok (forced, .error e) => w.abort forced (.configuration e)
  | .ok (forced, .ok options) =>
    match ← ((w.host filter.1).check (Style.reporter ⟨options, options.color && forced⟩ w.write)
      ⟨i.token, i.patterns⟩).run with
    | .ok report => return report.exitCode
    | .error e => w.abort (options.color && forced) e

/-- **What a check takes from its environment**: the log filter, and what its settings settle. -/
theorem World.check_eq_checkWith [LawfulMonad m] (world : World m) (files : Access Id)
    (directory : Option (List UInt8)) (hfiles : world.files = files.fixed)
    (hdirectory : world.directory = pure directory) (env : Environment) (i : Invocation) :
    world.check env i
      = world.checkWith i (filterFor env i.logLevel) ((settingsIn files directory env).map i.settled) := by
  rw [world.check_fixed files directory hfiles hdirectory]
  unfold World.checkWith
  cases settingsIn files directory env with
  | error crash => rfl
  | ok settings =>
    simp only [Except.map, Invocation.settled, Invocation.adjusted]
    cases Options.ofEnvironment settings <;> rfl

end

/-- **Options of the command line override the environment.** Take a world whose files do not change, a
command line that is accepted in one environment, and another environment that differs from it only in a
variable in whose place an option decides. The settings then differ in that variable only, or loading them
crashes in the same way, unless a line of the file `.env` refers to the variable, or one of them crashes at
a value for it. If they do, no format is refused on account of the variable, and no help is asked for in
which colour is forced, the two runs are one and the same: they print the same texts in the same order,
write the same lines to the log, and have the same exit status, whatever the world does with what it is
given. -/
theorem options_override {m : Type → Type} [Monad m] [LawfulMonad m] (world : World m)
    (files : Access Id) (directory : Option (List UInt8)) (hfiles : world.files = files.fixed)
    (hdirectory : world.directory = pure directory) (env env' : Environment)
    (arguments : List String) (command : Command) (v : List Char)
    (haccepted : Command.ofArguments env arguments = .ok command) (hoverrides : command.Overrides v)
    (hsame : env.SameBut v env') :
    let loaded := settingsIn files directory env
    let loaded' := settingsIn files directory env'
    ((∀ bytes, assignmentBytes files directory = some bytes → SilentFile v bytes) →
        AgreeBut v loaded loaded' ∨ CrashesAt v loaded ∨ CrashesAt v loaded')
      ∧ (AgreeBut v loaded loaded' →
          (v = Options.formatVariable → ∀ settings, loaded = .ok settings ∨ loaded' = .ok settings →
            ¬Misconfigured settings) →
          (v = Options.colorVariable → ∀ page, command = .showHelp page → Unforced env) →
          world.run env arguments = world.run env' arguments) := by
  intro loaded loaded'
  obtain ⟨hlog, hfilter, hforce⟩ := hoverrides.ne
  refine ⟨fun hsilent => parallel_settingsIn files hsame hoverrides.underscore hsilent, ?_⟩
  intro hsettings hright hunforced
  have haccepted' : Command.ofArguments env' arguments = .ok command := by
    rw [← ofArguments_congr hsame hlog]
    exact haccepted
  rw [World.run, World.run, haccepted, haccepted']
  cases command with
  | check i =>
    calc
      world.check env i
          = world.checkWith i (filterFor env i.logLevel) (loaded.map i.settled) :=
        world.check_eq_checkWith files directory hfiles hdirectory env i
      _ = world.checkWith i (filterFor env' i.logLevel) (loaded'.map i.settled) := by
        rw [filterFor_congr hsame hfilter, settled_congr hoverrides hsettings hright]
      _ = world.check env' i :=
        (world.check_eq_checkWith files directory hfiles hdirectory env' i).symm
  | showVersion => rfl
  | showHelp page =>
    simp only [presentation_congr hoverrides hsame fun hv => hunforced hv page rfl]

/-- A directory with a script without text and a file `.env`. -/
def besideScript (assignments : String) : Tree :=
  ⟨[([[119]], .directory), ([[119], Utf8.encode "a.js".toList], .file []),
    ([[119], fileName], .file (Utf8.encode assignments.toList))]⟩

/-- The world in that directory. -/
def besideScriptWorld (assignments : String) : World (StateM Transcript) :=
  .working ((besideScript assignments).access [[119]]) (some [slash, 119])

/-- With `--no-color`, a run does not depend on `NO_COLOR`, beside a file `.env` that does not refer to
it. -/
theorem options_override_color :
    let world := besideScriptWorld "ECMAV_VERBOSE=1\n"
    let arguments := ["--no-color", "check", "ecma5", "a.js"]
    let env := Environment.empty.put Options.colorVariable ['1']
    let i : Invocation := ⟨none, true, false, false, "ecma5", ["a.js"]⟩
    Command.ofArguments env arguments = .ok (.check i) ∧ i.Overrides Options.colorVariable
      ∧ env.SameBut Options.colorVariable .empty
      ∧ world.run env arguments = world.run .empty arguments := by
  intro world arguments env i
  have haccepted : Command.ofArguments env arguments = .ok (.check i) := rfl
  have hoverrides : i.Overrides Options.colorVariable := .inr (.inr ⟨rfl, rfl⟩)
  have hsame : env.SameBut Options.colorVariable .empty :=
    Environment.empty.sameBut_put Options.colorVariable ['1']
  let files : Access Id := (besideScript "ECMAV_VERBOSE=1\n").access [[119]]
  have hbytes : assignmentBytes files (some [slash, 119])
      = some (Utf8.encode "ECMAV_VERBOSE=1\n".toList) := by decide +kernel
  have hlines : linesOf (Utf8.encode "ECMAV_VERBOSE=1\n".toList)
      = [.text "ECMAV_VERBOSE=1".toList] := by
    decide +kernel
  have hsilent (bytes : List UInt8) (h : assignmentBytes files (some [slash, 119]) = some bytes) :
      SilentFile Options.colorVariable bytes := by
    cases hbytes.symm.trans h
    intro line hline
    rw [hlines] at hline
    cases List.mem_singleton.1 hline
    unfold Silent
    decide +kernel
  have hnocrash {e : Environment} (hloads : (settingsIn files (some [slash, 119]) e).isOk = true) :
      ¬CrashesAt Options.colorVariable (settingsIn files (some [slash, 119]) e) := by
    rintro ⟨value, hcrash⟩
    rw [hcrash] at hloads
    cases hloads
  obtain ⟨hsettings, hrun⟩ := options_override world files (some [slash, 119]) rfl rfl env .empty
    arguments (.check i) Options.colorVariable haccepted hoverrides hsame
  have hloaded := (hsettings hsilent).resolve_right
    (not_or.2 ⟨hnocrash (by decide +kernel), hnocrash (by decide +kernel)⟩)
  exact ⟨haccepted, hoverrides, hsame, hrun hloaded (fun h => absurd h (by decide)) nofun⟩

/-- A variable shows through the option in whose place it stands: `ECMAV_FORMAT` where it names no format,
and `NO_COLOR` where the file `.env` gives its value to another variable. -/
theorem environment_shows_through :
    (((besideScriptWorld "").run (Environment.empty.put Options.formatVariable "xml".toList)
          ["check", "ecma5", "--json"]).run {}).1 = 2
      ∧ (((besideScriptWorld "").run .empty ["check", "ecma5", "--json"]).run {}).1 = 0
      ∧ ¬ ∀ (files : Access Id) (directory : Option (List UInt8)) (env env' : Environment)
          (arguments : List String) (i : Invocation) (v : List Char),
          Command.ofArguments env arguments = .ok (.check i) → i.Overrides v → env.SameBut v env' →
          (((World.working files directory).run env arguments).run {}).2.printed
            = (((World.working files directory).run env' arguments).run {}).2.printed := by
  refine ⟨by decide +kernel, by decide +kernel, fun hall => ?_⟩
  have hsame := Environment.empty.sameBut_put Options.colorVariable ['1']
  have haccepted : Command.ofArguments (Environment.empty.put Options.colorVariable ['1'])
      ["--no-color", "check", "ecma5", "a.js"]
        = .ok (.check ⟨none, true, false, false, "ecma5", ["a.js"]⟩) := rfl
  have hequal := hall ((besideScript "ECMAV_VERBOSE=$\x7bNO_COLOR\x7d\n").access [[119]])
    (some [slash, 119]) (Environment.empty.put Options.colorVariable ['1']) .empty
    ["--no-color", "check", "ecma5", "a.js"] ⟨none, true, false, false, "ecma5", ["a.js"]⟩
    Options.colorVariable haccepted (.inr (.inr ⟨rfl, rfl⟩)) hsame
  have hdiffer : (((besideScriptWorld "ECMAV_VERBOSE=$\x7bNO_COLOR\x7d\n").run
        (Environment.empty.put Options.colorVariable ['1'])
        ["--no-color", "check", "ecma5", "a.js"]).run {}).2.printed
      ≠ (((besideScriptWorld "ECMAV_VERBOSE=$\x7bNO_COLOR\x7d\n").run .empty
        ["--no-color", "check", "ecma5", "a.js"]).run {}).2.printed := by
    decide +kernel
  exact hdiffer hequal

end EditionCheck.CommandLine
