import EditionCheck.Settings.Environment

/-!
# Command lines

The arguments of the program: options that hold everywhere, the word `check` or `c`, and the options and
values of that command. Arguments are read from left to right. The option `--log-level` takes the next
argument as its value; whether it may stand there is settled only when something follows it or the level
ends, so that an unknown argument behind it is noticed first. What stands behind `check` is read, and may
be wrong, before the options in front of it are settled.
-/

set_option autoImplicit false

namespace EditionCheck.CommandLine

open EditionCheck.Settings

/-! ## Results -/

/-- A command to check files, with what the command line says about it. -/
structure Invocation where
  logLevel : Option String
  noColor : Bool
  verbose : Bool
  json : Bool
  token : String
  patterns : List String
  deriving DecidableEq, Repr

/-- A page of help. -/
inductive HelpPage where
  | program
  | check
  | help
  deriving DecidableEq, Repr

/-- What the program is asked to do. -/
inductive Command where
  | check (invocation : Invocation)
  | showVersion
  | showHelp (page : HelpPage)
  deriving DecidableEq, Repr

/-- What is wrong with a command line. -/
inductive UsageError where
  | unexpectedArgument (argument : String)
  | unexpectedValue (value option : String)
  | repeated (option : String)
  | missingValue (option : String)
  | missingVersion
  | unknownCommand (name : String)
  | missingCommand
  /-- Nothing at all is given, so that help is shown. -/
  | nothingGiven
  /-- A value is no text. -/
  | brokenText
  deriving DecidableEq, Repr

/-! ## Options -/

/-- An option of the program. -/
inductive Switch where
  | logLevel
  | noColor
  | verbose
  | json
  | help
  | version
  deriving DecidableEq, Repr

namespace Switch

/-- An option with its value in messages. -/
def label : Switch → String
  | logLevel => "--log-level <LOG_LEVEL>"
  | noColor => "--no-color"
  | verbose => "--verbose"
  | json => "--json"
  | help => "--help"
  | version => "--version"

/-- The option with a long name; `inCheck` says that it stands behind the command. -/
def ofLong? (inCheck : Bool) (name : String) : Option Switch :=
  if name == "log-level" then some logLevel
  else if name == "no-color" then some noColor
  else if name == "help" then some help
  else if name == "verbose" && inCheck then some verbose
  else if name == "json" && inCheck then some json
  else if name == "version" && !inCheck then some version
  else none

/-- The option with a letter. -/
def ofLetter? (inCheck : Bool) (c : Char) : Option Switch :=
  if c == 'h' then some help
  else if c == 'v' && inCheck then some verbose
  else if c == 'V' && !inCheck then some version
  else none

end Switch

/-! ## Reading arguments -/

/-- Why reading stops early. -/
inductive Stop where
  | wrong (e : UsageError)
  | asked (c : Command)
  deriving DecidableEq, Repr

/-- A `--log-level` that is not settled. -/
inductive Waiting where
  | no
  | forValue
  | withValue (value : String)
  deriving DecidableEq, Repr

/-- What has been read on one level. -/
structure Seen where
  logLevel : Option String := none
  waiting : Waiting := .no
  noColor : Bool := false
  verbose : Bool := false
  json : Bool := false
  values : List String := []
  deriving DecidableEq, Repr

namespace Seen

/-- Takes a value for the log level. -/
def takeLevel (s : Seen) (value : String) : Except Stop Seen :=
  if s.logLevel.isSome then .error (.wrong (.repeated Switch.logLevel.label))
  else .ok { s with logLevel := some value, waiting := .no }

/-- Settles a `--log-level` that waits. -/
def settle (s : Seen) : Except Stop Seen :=
  match s.waiting with
  | .no => .ok s
  | .forValue => .error (.wrong (.missingValue Switch.logLevel.label))
  | .withValue value => s.takeLevel value

/-- Switches something on that may be given once; `on` is the result if it is off. -/
def switchOn (switch : Switch) (already : Bool) (on : Seen) : Except Stop Seen :=
  if already then .error (.wrong (.repeated switch.label)) else .ok on

/-- Reads an option without a value. -/
def takeSwitch (inCheck : Bool) (s : Seen) (switch : Switch) : Except Stop Seen := do
  let s ← s.settle
  match switch with
  | .logLevel => .ok { s with waiting := .forValue }
  | .noColor => switchOn switch s.noColor { s with noColor := true }
  | .verbose => switchOn switch s.verbose { s with verbose := true }
  | .json => switchOn switch s.json { s with json := true }
  | .help => .error (.asked (.showHelp (if inCheck then .check else .program)))
  | .version => .error (.asked .showVersion)

/-- Reads an option by its long name, with the value that an equals sign attaches to it. -/
def takeLong (inCheck : Bool) (s : Seen) (name : String) (value : Option String) :
    Except Stop Seen :=
  match Switch.ofLong? inCheck name, value with
  | none, _ => .error (.wrong (.unexpectedArgument ("--" ++ name)))
  | some .logLevel, some v => s.settle >>= fun s => s.takeLevel v
  | some switch, some v => .error (.wrong (.unexpectedValue v switch.label))
  | some switch, none => s.takeSwitch inCheck switch

/-- Reads options by their letters. -/
def takeLetters (inCheck : Bool) (s : Seen) : List Char → Except Stop Seen
  | [] => .ok s
  | c :: cs =>
    match Switch.ofLetter? inCheck c with
    | none => .error (.wrong (.unexpectedArgument ("-" ++ String.singleton c)))
    | some switch => s.takeSwitch inCheck switch >>= fun s => takeLetters inCheck s cs

end Seen

/-- How an argument looks. -/
inductive Shape where
  | dashes
  | long (name : String) (value : Option String)
  | letters (cs : List Char)
  | plain
  deriving DecidableEq, Repr

/-- How an argument looks: `--`, an option by name or by letters, or anything else, such as a dash. -/
def shapeOf (argument : String) : Shape :=
  match argument.toList with
  | ['-', '-'] => .dashes
  | '-' :: '-' :: rest =>
    let name := rest.takeWhile (· != '=')
    .long (String.ofList name)
      (match rest.drop name.length with
        | _ :: value => some (String.ofList value)
        | [] => none)
  | '-' :: c :: cs => .letters (c :: cs)
  | _ => .plain

/-- Reads the arguments behind the command. `onlyValues` says that `--` has been read. -/
def readCheck (onlyValues : Bool) (s : Seen) : List String → Except Stop Seen
  | [] => s.settle
  | a :: rest =>
    let takeValue : Except Stop Seen :=
      s.settle.map fun s => { s with values := s.values ++ [a] }
    if onlyValues then takeValue >>= fun s => readCheck true s rest
    else
      match shapeOf a with
      | .dashes => readCheck true s rest
      | .long name value => s.takeLong true name value >>= fun s => readCheck false s rest
      | .letters cs => s.takeLetters true cs >>= fun s => readCheck false s rest
      | .plain =>
        if s.waiting = .forValue then readCheck false { s with waiting := .withValue a } rest
        else takeValue >>= fun s => readCheck false s rest

/-- Whether an argument names the command to check files. -/
def isCheckName (a : String) : Bool := a == "check" || a == "c"

/-- The page that the arguments behind the command `help` ask for. -/
def helpPage : List String → Except UsageError HelpPage
  | [] => .ok .program
  | a :: rest =>
    if isCheckName a || a == "help" then
      match rest with
      | [] => .ok (if a == "help" then .help else .check)
      | b :: _ => .error (.unknownCommand b)
    else .error (.unknownCommand a)

/-- What follows the options of the program. -/
inductive Tail where
  | nothing
  | check (arguments : List String)
  deriving DecidableEq, Repr

/-- Reads the arguments in front of the command. The options are not settled at its end. -/
def readFront (onlyValues : Bool) (s : Seen) : List String → Except Stop (Seen × Tail)
  | [] => .ok (s, .nothing)
  | a :: rest =>
    let isCommand := isCheckName a || a == "help"
    if onlyValues then
      .error (.wrong (if isCommand then .unexpectedArgument a else .unknownCommand a))
    else if isCommand && s.waiting ≠ .forValue then
      if a == "help" then
        match helpPage rest with
        | .ok page => .error (.asked (.showHelp page))
        | .error e => .error (.wrong e)
      else .ok (s, .check rest)
    else
      match shapeOf a with
      | .dashes => readFront true s rest
      | .long name value => s.takeLong false name value >>= fun s => readFront false s rest
      | .letters cs => s.takeLetters false cs >>= fun s => readFront false s rest
      | .plain =>
        if s.waiting = .forValue then readFront false { s with waiting := .withValue a } rest
        else .error (.wrong (.unknownCommand a))

/-! ## Whole command lines -/

/-- The name of the variable for the log level. -/
def logVariable : List Char := "ECMAV_LOG".toList

/-- The log level of the environment, which is asked for where none has been read. -/
def levelFrom (env : Environment) (s : Seen) : Except Stop (Option String) :=
  if s.logLevel.isSome then .ok none
  else
    match env.bytes? logVariable with
    | none => .ok none
    | some _ =>
      match env.text? logVariable with
      | some value => .ok (some (String.ofList value))
      | none => .error (.wrong .brokenText)

/-- The command behind the options of the program. The inner options win over the outer ones, and both
over the environment. -/
def readCommand (env : Environment) (arguments : List String) : Except Stop Command := do
  let (front, tail) ← readFront false {} arguments
  match tail with
  | .nothing => do
    let front ← front.settle
    let level ← levelFrom env front
    if front.logLevel.isNone && level.isNone && !front.noColor then
      .error (.wrong .nothingGiven)
    else .error (.wrong .missingCommand)
  | .check rest => do
    let inner ← readCheck false {} rest
    let innerLevel ← levelFrom env inner
    match inner.values with
    | [] => .error (.wrong .missingVersion)
    | token :: patterns => do
      let front ← front.settle
      let frontLevel ← levelFrom env front
      .ok (.check {
        logLevel :=
          (inner.logLevel.orElse fun _ => front.logLevel).orElse fun _ =>
            innerLevel.orElse fun _ => frontLevel
        noColor := front.noColor || inner.noColor
        verbose := inner.verbose
        json := inner.json
        token
        patterns })

/-- The command that a command line spells. -/
def Command.ofArguments (env : Environment) (arguments : List String) : Except UsageError Command :=
  match readCommand env arguments with
  | .ok command => .ok command
  | .error (.asked command) => .ok command
  | .error (.wrong e) => .error e

end EditionCheck.CommandLine
