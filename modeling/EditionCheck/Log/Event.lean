import EditionCheck.Glob.Pattern
import EditionCheck.Text.Quoted
import EditionCheck.Verdict

/-!
# Log events

What the checker records about its own work. An event has a level, the part of the program that it
comes from, and a line of text: a message and named values.
-/

set_option autoImplicit false

namespace EditionCheck.Log

open EditionCheck.Glob EditionCheck.Scan EditionCheck.Script EditionCheck.Text

/-- How important an event is. -/
inductive Level where
  | error
  | warn
  | info
  | debug
  | trace
  deriving DecidableEq, Repr

namespace Level

/-- The detail at which an event is shown; greater is finer. -/
def detail : Level → Nat
  | error => 1
  | warn => 2
  | info => 3
  | debug => 4
  | trace => 5

/-- The name of a level at the head of a line. -/
def name : Level → String
  | error => "ERROR"
  | warn => "WARN"
  | info => "INFO"
  | debug => "DEBUG"
  | trace => "TRACE"

end Level

/-- Something that the checker records. -/
inductive Event where
  /-- A version token is not known. -/
  | unknownToken (token : String)
  /-- A version token has been resolved. -/
  | resolved (token : String) (grammar : Grammar)
  /-- A text is no pattern, so it is taken for a path. -/
  | notPattern (pattern : String) (error : PatternError)
  /-- A pattern has been expanded to so many paths. -/
  | expanded (pattern : String) (matched : Nat)
  /-- A text is no script. -/
  | unparsable (error : SyntaxError)
  /-- A script breaks rules. -/
  | breached (error : EarlyError)
  /-- A script uses a feature that is too new. -/
  | newerSyntax (requirement : Requirement) (grammar : Grammar)
  /-- A file does not match the version. -/
  | rejected (path : List UInt8) (verdict : Verdict)
  /-- A run has ended. -/
  | finished (grammar : Grammar) (checked failed : Nat)
  deriving DecidableEq, Repr

/-- The events of an examination under a version. -/
def eventsOf (grammar : Grammar) : Finding → List Event
  | .conforming => []
  | .unparsable errors => errors.head?.toList.map .unparsable
  | .breaches first _ => [.breached first]
  | .newer r => [.newerSyntax r grammar]

/-- The name of an edition inside a verdict. -/
def editionName (e : Edition) : String := "Es" ++ (e.name.drop 2).toString

/-- A verdict in a log line. -/
def verdictText : Verdict → String
  | .pass => "Pass"
  | .malformed n => "Fail(Syntax \x7b errors: " ++ toString n ++ " \x7d)"
  | .feature newer =>
    "Fail(Feature \x7b feature: " ++ (newer : Feature).name ++ ", edition: "
      ++ editionName newer.edition ++ " \x7d)"

namespace Event

/-- How important an event is. -/
def level : Event → Level
  | unknownToken _ => .warn
  | resolved _ _ => .info
  | notPattern _ _ => .debug
  | expanded _ _ => .info
  | unparsable _ => .debug
  | breached _ => .debug
  | newerSyntax _ _ => .debug
  | rejected _ _ => .debug
  | finished _ _ _ => .info

/-- The part of the program that an event comes from. -/
def source : Event → String
  | unknownToken _ => "ecmav_core::version"
  | resolved _ _ => "ecmav_core::version"
  | notPattern _ _ => "ecmav_core::collector"
  | expanded _ _ => "ecmav_core::collector"
  | unparsable _ => "ecmav_core::validator"
  | breached _ => "ecmav_core::validator"
  | newerSyntax _ _ => "ecmav_core::validator"
  | rejected _ _ => "ecmav_core::pipeline"
  | finished _ _ _ => "ecmav_core::pipeline"

/-- The message of an event. -/
def message : Event → String
  | unknownToken _ => "unrecognized ecma version, using grammar 5"
  | resolved _ _ => "resolved ecma version"
  | notPattern _ _ => "not a glob pattern, trying literal path"
  | expanded _ _ => "expanded pattern"
  | unparsable _ => "parse failed"
  | breached _ => "early error"
  | newerSyntax _ _ => "syntax newer than grammar"
  | rejected _ _ => "file rejected"
  | finished _ _ _ => "check finished"

/-- The named values of an event. -/
def values : Event → List (String × String)
  | unknownToken token => [("token", quote token)]
  | resolved token grammar => [("token", quote token), ("grammar", grammar.digit)]
  | notPattern pattern error => [("pattern", quote pattern), ("error", error.message)]
  | expanded pattern matched => [("pattern", quote pattern), ("matched", toString matched)]
  | unparsable error => [("error", "at " ++ toString error.offset)]
  | breached error => [("error", "at " ++ toString error.place.start)]
  | newerSyntax r grammar =>
    [("feature", r.feature.label), ("offset", toString r.span.start), ("grammar", grammar.digit)]
  | rejected path verdict =>
    [("path", String.ofList (Utf8.lossy path)), ("verdict", verdictText verdict)]
  | finished grammar checked failed =>
    [("grammar", grammar.digit), ("checked", toString checked), ("failed", toString failed)]

/-- The names of the values of an event, the message among them. -/
def fieldNames (e : Event) : List String := "message" :: e.values.map (·.1)

/-- The line of an event. -/
def text (e : Event) : String :=
  e.level.name ++ " " ++ e.message
    ++ String.join (e.values.map fun v => " " ++ v.1 ++ "=" ++ v.2)

end Event

end EditionCheck.Log
