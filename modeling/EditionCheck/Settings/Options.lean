import EditionCheck.Files.Access
import EditionCheck.Settings.Assignment
import EditionCheck.Text.Quoted

/-!
# Options

How a run presents its result, as the environment and a file `.env` ask for it. The file is looked for
in the working directory and in the directories above it, and variables of the environment win over it.

Main statement: `ofEnvironment_error_iff` — only an unknown format is refused.
-/

set_option autoImplicit false

namespace EditionCheck.Settings

open EditionCheck.Files EditionCheck.Text

/-- The shape of the final report. -/
inductive Format where
  | text
  | json
  deriving DecidableEq, Repr

/-- How a run presents its result. -/
structure Options where
  /-- Whether files that pass are reported, too. -/
  verbose : Bool := false
  format : Format := .text
  color : Bool := true
  deriving DecidableEq, Repr

/-- Why an environment gives no options. -/
inductive OptionsError where
  | unknownFormat (value : List Char)
  deriving DecidableEq, Repr

/-- The wording of an error. -/
def OptionsError.message : OptionsError → String
  | unknownFormat value =>
    "invalid value for environment variable ECMAV_FORMAT: " ++ String.ofList (quoteChars value)

/-! ## Values -/

/-- A text with its ASCII letters in lower case. -/
def lowerCase (cs : List Char) : List Char := cs.map Char.toLower

/-- Whether a value switches something on. -/
def switchesOn (value : List Char) : Bool :=
  ["1", "true", "yes", "on"].contains (String.ofList (lowerCase (trim value)))

/-- The format with a name. -/
def Format.ofName? (value : List Char) : Option Format :=
  let word := String.ofList (lowerCase value)
  if word == "text" || word == "human" then some .text
  else if word == "json" then some .json
  else none

namespace Options

/-- The name of the variable that asks for a line for every file. -/
def verboseVariable : List Char := "ECMAV_VERBOSE".toList

/-- The name of the variable for the format. -/
def formatVariable : List Char := "ECMAV_FORMAT".toList

/-- The name of the variable that switches colour off, when it is not empty. -/
def colorVariable : List Char := "NO_COLOR".toList

/-- The format that an environment asks for. -/
def formatOf (env : Environment) : Except OptionsError Format :=
  match env.text? formatVariable with
  | none => .ok .text
  | some value =>
    match Format.ofName? value with
    | some format => .ok format
    | none => .error (.unknownFormat value)

/-- The options that an environment asks for. -/
def ofEnvironment (env : Environment) : Except OptionsError Options := do
  let format ← formatOf env
  return {
    verbose := (env.text? verboseVariable).any switchesOn
    format
    color := !(env.text? colorVariable).any fun value => !value.isEmpty }

theorem ofEnvironment_error_iff {env : Environment} {e : OptionsError} :
    ofEnvironment env = .error e ↔ formatOf env = .error e := by
  unfold ofEnvironment
  cases formatOf env with
  | error e' => simp [bind, Except.bind]
  | ok format => simp [bind, Except.bind, pure, Except.pure]

end Options

/-! ## The assignment file -/

/-- A path without the last of some names, for every number of them, longest first. -/
def ancestors (path : List UInt8) : List (List UInt8) :=
  let ns := (names path).filter (· ≠ [])
  (List.range (ns.length + 1)).reverse.map fun k =>
    (ns.take k).foldl join [slash]

/-- The name of the assignment file. -/
def fileName : List UInt8 := Utf8.encode ".env".toList

section

variable {m : Type → Type} [Monad m]

/-- The assignment file for the first of some directories that has one. A path that cannot be looked
up for another reason than that nothing is there ends the search. -/
def findFile (files : Access m) : List (List UInt8) → m (Option (List UInt8))
  | [] => pure none
  | directory :: rest => do
    let path := join directory fileName
    match ← files.kind path with
    | .ok .file => pure (some path)
    | .ok .directory => findFile files rest
    | .error .notFound => findFile files rest
    | .error _ => pure none

/-- The environment with the assignments of the file for a directory. -/
def loadFor (files : Access m) (directory : List UInt8) (env : Environment) :
    m (Except Crash Environment) := do
  match ← findFile files (ancestors directory) with
  | none => pure (.ok env)
  | some path =>
    match ← files.read path with
    | .ok bytes => pure (load env bytes)
    | .error _ => pure (.ok env)

end

end EditionCheck.Settings
