import EditionCheck.Check
import EditionCheck.CommandLine.Messages
import EditionCheck.Log.Filter
import EditionCheck.Report.Console

/-!
# The program

A run of the program from its arguments and environment to its exit status. The program asks the world
around it for files and for its working directory, and gives it texts to print and lines for the log.

The status is `0` if all files match, `1` if some do not, and `2` if the run could not be carried out. A
crash while the settings are loaded ends the run with the status `101`.
-/

set_option autoImplicit false

namespace EditionCheck.CommandLine

open EditionCheck.Files EditionCheck.Log EditionCheck.Settings

/-- What the program is given to work with. -/
structure World (m : Type → Type) where
  files : Access m
  /-- The path of the working directory, if it has one. -/
  directory : m (Option (List UInt8))
  /-- Prints a text. -/
  write : Channel → String → ExceptT Fault m Unit
  /-- Writes a line to the log. -/
  record : String → m Unit

/-! ## Options -/

/-- The options with what the command line says about them. -/
def Invocation.adjust (i : Invocation) (o : Options) : Options :=
  { verbose := i.verbose || o.verbose
    format := if i.json then .json else o.format
    color := !i.noColor && o.color }

/-- Whether an environment forces colour in reports and fatal errors: its variable is a text other
than `0`. -/
def forcesColor (env : Environment) : Bool :=
  match env.text? forceVariable with
  | some value => value != ['0']
  | none => false

/-- The name of the variable for the log filter. -/
def filterVariable : List Char := "RUST_LOG".toList

/-- The log filter, and the complaints about it. A filter of the environment that can be read wins over
the log level, and without either, warnings are shown. -/
def filterFor (env : Environment) (level : Option String) : Filter × List String :=
  match (env.text? filterVariable).bind Filter.ofChars? with
  | some filter => (filter, [])
  | none => Filter.ofCharsLeniently (level.getD "warn").toList

/-! ## Running -/

section

variable {m : Type → Type} [Monad m]

/-- Prints a text whether or not it can be printed. -/
def World.say (w : World m) (channel : Channel) (text : String) : m Unit := do
  let _ ← (w.write channel text).run
  return ()

/-- Ends a run with an error. -/
def World.abort (w : World m) (color : Bool) (e : Obstacle) : m Nat := do
  w.say .err (Color.red.paint color "✖ ecma-v:" ++ " " ++ e.message ++ "\n")
  return 2

/-- Ends a run where it stands. -/
def World.crash (w : World m) (crash : Crash) : m Nat := do
  w.say .err (crash.message ++ "\n")
  return 101

/-- The host of a check whose log is filtered. -/
def World.host (w : World m) (filter : Filter) : Host m where
  files := w.files
  log e := if filter.admits e then w.record e.text else pure ()

/-- Carries out the command to check files. -/
def World.check (w : World m) (env : Environment) (i : Invocation) : m Nat := do
  let (filter, complaints) := filterFor env i.logLevel
  complaints.forM fun line => w.say .err (line ++ "\n")
  let loaded ← match ← w.directory with
    | some directory => loadFor w.files directory env
    | none => pure (.ok env)
  match loaded with
  | .error crash => w.crash crash
  | .ok settings =>
    let forced := forcesColor settings
    match Options.ofEnvironment settings with
    | .error e => w.abort forced (.configuration e)
    | .ok options =>
      let options := i.adjust options
      let color := options.color && forced
      let style : Style := { options, escapes := color }
      match ← ((w.host filter).check (style.reporter w.write) ⟨i.token, i.patterns⟩).run with
      | .ok report => return report.exitCode
      | .error e => w.abort color e

/-- Runs the program and gives its exit status. -/
def World.run (w : World m) (env : Environment) (arguments : List String) : m Nat := do
  match Command.ofArguments env arguments with
  | .error e =>
    w.say .err (e.text (.ofEnvironment env))
    return 2
  | .ok .showVersion =>
    w.say .out versionText
    return 0
  | .ok (.showHelp page) =>
    w.say .out (page.text (.ofEnvironment env))
    return 0
  | .ok (.check i) => w.check env i

end

end EditionCheck.CommandLine
