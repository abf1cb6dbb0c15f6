import EditionCheck.CommandLine.Arguments
import EditionCheck.Settings.Options

/-!
# Messages of the command line

The texts for wrong command lines, for help and for the version of the program. Where colour is forced,
headings and options stand out in help, and the argument in the message for a wrong one.
-/

set_option autoImplicit false

namespace EditionCheck.CommandLine

open EditionCheck.Settings EditionCheck.Text

/-! ## Emphasis -/

/-- How a part of a message stands out. -/
inductive Emphasis where
  | wrong
  | missing
  | literal
  | heading
  deriving DecidableEq, Repr

/-- A part of a message that stands out if colour is on. -/
def Emphasis.mark (e : Emphasis) (on : Bool) (text : String) : String :=
  if on then
    (match e with
      | wrong => "\x1b[33m"
      | missing => "\x1b[32m"
      | literal => "\x1b[1m"
      | heading => "\x1b[1m\x1b[4m") ++ text ++ "\x1b[0m"
  else text

/-- The name of the variable that forces colour. -/
def forceVariable : List Char := "CLICOLOR_FORCE".toList

/-- How messages on the command line are presented. -/
structure Presentation where
  color : Bool
  /-- The value of the variable for the log level, which help shows. -/
  level : List Char

/-- The presentation that an environment asks for: colour is forced if no variable switches it off, and
the one that forces it has another value than `0`. -/
def Presentation.ofEnvironment (env : Environment) : Presentation where
  color :=
    (match env.bytes? Options.colorVariable with
      | some value => value.isEmpty
      | none => true)
    && (match env.bytes? forceVariable with
      | some value => value != [48]
      | none => false)
  level := Utf8.lossy ((env.bytes? logVariable).getD [])

/-! ## Help -/

/-- The name and version of the program. -/
def versionText : String := "ecma-v 0.1.0\n"

/-- What the program does. -/
def purpose : String := "Check JavaScript files against an ECMAScript grammar version"

/-- An option with its short and long spelling, as help lists it. -/
def optionEntry (color : Bool) (short : Option String) (long rest : String) : String :=
  (match short with
    | some s => "  " ++ Emphasis.literal.mark color s ++ ", "
    | none => "      ")
    ++ Emphasis.literal.mark color long ++ rest ++ "\n"

/-- The options that hold everywhere, as help lists them. -/
def commonOptions (p : Presentation) : String :=
  optionEntry p.color none "--log-level"
      (" <LOG_LEVEL>  Log filter for diagnostics on stderr (e.g. \x22info\x22, "
        ++ "\x22ecmav_core=debug\x22) [env: ECMAV_LOG=" ++ String.ofList p.level ++ "]")
    ++ optionEntry p.color none "--no-color" "               Disable colored output"

/-- How a command is used. -/
def usageLine (color : Bool) (command rest : String) : String :=
  Emphasis.heading.mark color "Usage:" ++ " " ++ Emphasis.literal.mark color command ++ rest ++ "\n\n"

/-- The text of a page of help. -/
def HelpPage.text (p : Presentation) : HelpPage → String
  | program =>
    purpose ++ "\n\n" ++ usageLine p.color "ecma-v" " [OPTIONS] <COMMAND>"
      ++ Emphasis.heading.mark p.color "Commands:" ++ "\n  "
      ++ Emphasis.literal.mark p.color "check"
      ++ "  Check that files parse under the given ECMAScript version [aliases: c]\n  "
      ++ Emphasis.literal.mark p.color "help"
      ++ "   Print this message or the help of the given subcommand(s)\n\n"
      ++ Emphasis.heading.mark p.color "Options:" ++ "\n" ++ commonOptions p
      ++ optionEntry p.color (some "-h") "--help" "                   Print help"
      ++ optionEntry p.color (some "-V") "--version" "                Print version"
  | check =>
    "Check that files parse under the given ECMAScript version\n\n"
      ++ usageLine p.color "ecma-v check" " [OPTIONS] <ECMA-VERSION> [FILES]..."
      ++ Emphasis.heading.mark p.color "Arguments:"
      ++ "\n  <ECMA-VERSION>  ecma3, ecma4, ecma6, ecma7 or ecma8; any other value checks against "
      ++ "grammar 5\n"
      ++ "  [FILES]...      Glob patterns or paths of the files to check\n\n"
      ++ Emphasis.heading.mark p.color "Options:" ++ "\n" ++ commonOptions p
      ++ optionEntry p.color (some "-v") "--verbose"
        "                Print a line for every file that passes"
      ++ optionEntry p.color none "--json" "                   Print the final report as JSON"
      ++ optionEntry p.color (some "-h") "--help" "                   Print help"
  | help =>
    "Print this message or the help of the given subcommand(s)\n\n"
      ++ usageLine p.color "ecma-v help" " [COMMAND]..."
      ++ Emphasis.heading.mark p.color "Arguments:"
      ++ "\n  [COMMAND]...  Print help for the subcommand(s)\n"

/-! ## Wrong command lines -/

namespace UsageError

/-- What is wrong. -/
def message (color : Bool) : UsageError → String
  | unexpectedArgument argument =>
    "unexpected argument '" ++ Emphasis.wrong.mark color argument ++ "' found"
  | unexpectedValue value option =>
    "unexpected value '" ++ Emphasis.wrong.mark color value ++ "' for '"
      ++ Emphasis.literal.mark color option ++ "' found; no more were expected"
  | repeated option =>
    "the argument '" ++ Emphasis.wrong.mark color option ++ "' cannot be used multiple times"
  | missingValue option =>
    "a value is required for '" ++ Emphasis.wrong.mark color option ++ "' but none was supplied"
  | missingVersion =>
    "the following required arguments were not provided:\n  "
      ++ Emphasis.missing.mark color "<ECMA-VERSION>"
  | unknownCommand name => "unrecognized subcommand '" ++ Emphasis.wrong.mark color name ++ "'"
  | missingCommand =>
    "'" ++ Emphasis.wrong.mark color "ecma-v"
      ++ "' requires a subcommand but one was not provided"
  | nothingGiven => purpose
  | brokenText => "invalid UTF-8 was detected in one or more arguments"

/-- The text that is printed for a wrong command line. -/
def text (p : Presentation) : UsageError → String
  | nothingGiven => HelpPage.program.text p
  | e =>
    (if p.color then "\x1b[1m\x1b[31merror:\x1b[0m " else "error: ") ++ e.message p.color
      ++ "\n\nFor more information, try '"
      ++ Emphasis.literal.mark p.color "--help" ++ "'.\n"

end UsageError

end EditionCheck.CommandLine
