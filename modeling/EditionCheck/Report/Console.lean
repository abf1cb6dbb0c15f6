import EditionCheck.Report.Json

/-!
# Console reports

What a reporter prints. In text format, files that pass and the message of success go to the output,
files that fail and their summary to the error output; in JSON format, only the final report is printed.
What a notice prints is a value (`Style.printed`), which `Style.reporter` writes piece by piece, so that
a channel that refuses a piece ends the run there.

Main statements: `printed_json_of_not_finished` — in JSON format only the end of a run prints —,
`Streams.write_of_refusal_none` — what a channel takes is put behind what it holds.
-/

set_option autoImplicit false

namespace EditionCheck

open EditionCheck.Files EditionCheck.Settings

/-! ## Colour -/

/-- The colours of the program. -/
inductive Color where
  | green
  | red
  deriving DecidableEq, Repr

/-- The number of a colour in an escape sequence. -/
def Color.code : Color → String
  | green => "32"
  | red => "31"

/-- A text in bold letters of a colour, if colour is on. -/
def Color.paint (color : Color) (on : Bool) (text : String) : String :=
  if on then "\x1b[1;" ++ color.code ++ "m" ++ text ++ "\x1b[0m" else text

/-! ## Lines -/

/-- Where a text is printed. -/
inductive Channel where
  | out
  | err
  deriving DecidableEq, Repr

/-- How reports are printed. -/
structure Style where
  options : Options
  /-- Whether the terminal may be sent escape sequences. -/
  escapes : Bool
  deriving DecidableEq, Repr

/-- What is printed, piece by piece, and the fault that stops it before its end. -/
structure Printed where
  pieces : List (Channel × String)
  fault : Option Fault := none
  deriving DecidableEq, Repr

namespace Style

/-- The name of the program at the head of a line. -/
def heading (s : Style) (color : Color) : String :=
  color.paint (s.options.color && s.escapes) "ecma-v:"

/-- The line for a file that passes. -/
def passedLine (s : Style) (path : Path) (grammar : Grammar) : String :=
  "🏆 " ++ s.heading .green ++ " '" ++ String.ofList path.shown ++ "' matches ecma" ++ grammar.digit
    ++ "\n"

/-- The line for a file that fails. -/
def failedLine (s : Style) (path : Path) (grammar : Grammar) : String :=
  s.heading .red ++ " '" ++ String.ofList path.shown ++ "' does not match ecma" ++ grammar.digit ++ "\n"

/-- The line for a run without failures. -/
def successLine (s : Style) : String := s.heading .green ++ " there were no matching errors! 🎉\n"

/-- The first line of the summary of failures. -/
def summaryLine (s : Style) (count : Nat) : String :=
  s.heading .red ++ " there were " ++ toString count ++ " matching errors!\n"

/-- The line of the summary for a file. -/
def summaryPathLine (s : Style) (path : Path) : String :=
  "  " ++ s.heading .red ++ " error in: " ++ String.ofList path.shown ++ "\n"

/-- What the end of a run prints in text format. -/
def textSummary (s : Style) (r : Report) : List (Channel × String) :=
  if r.isSuccess then [(.out, s.successLine)]
  else
    (.err, s.summaryLine r.failures.length)
      :: r.failures.map fun path => (.err, s.summaryPathLine path)

/-- What the end of a run prints in JSON format. -/
def jsonSummary (r : Report) : Printed :=
  { pieces := [(.out, String.ofList r.json.text)]
    fault := if r.json.complete then none else some (.other "path contains invalid UTF-8 characters") }

/-- What a notice prints. -/
def printed (s : Style) (n : Notice) : Printed :=
  match s.options.format, n with
  | .json, .finished report => jsonSummary report
  | .json, _ => ⟨[], none⟩
  | .text, .passed path grammar =>
    ⟨if s.options.verbose then [(.out, s.passedLine path grammar)] else [], none⟩
  | .text, .failed path grammar => ⟨[(.err, s.failedLine path grammar)], none⟩
  | .text, .finished report => ⟨s.textSummary report, none⟩

theorem printed_json_of_not_finished {s : Style} (h : s.options.format = .json) {n : Notice}
    (hn : ∀ report, n ≠ .finished report) : s.printed n = ⟨[], none⟩ := by
  cases n with
  | passed => simp [printed, h]
  | failed => simp [printed, h]
  | finished report => exact absurd rfl (hn report)

/-- Writes pieces until one is refused. -/
def writePieces {m : Type → Type} [Monad m] (write : Channel → String → ExceptT Fault m Unit) :
    List (Channel × String) → ExceptT Fault m Unit
  | [] => pure ()
  | piece :: rest => do
    write piece.1 piece.2
    writePieces write rest

/-- The reporter that prints notices. -/
def reporter {m : Type → Type} [Monad m] (s : Style)
    (write : Channel → String → ExceptT Fault m Unit) : Reporter m := fun n =>
  let printed := s.printed n
  ExceptT.adapt Obstacle.output do
    writePieces write printed.pieces
    match printed.fault with
    | some fault => throw fault
    | none => pure ()

end Style

/-! ## Streams in memory -/

/-- What two channels hold, and the fault with which each refuses everything. -/
structure Streams where
  out : String := ""
  err : String := ""
  refusal : Channel → Option Fault := fun _ => none

namespace Streams

/-- The text that a channel holds. -/
def held (s : Streams) : Channel → String
  | .out => s.out
  | .err => s.err

/-- The streams with a text put behind what a channel holds. -/
def append (s : Streams) (channel : Channel) (text : String) : Streams :=
  match channel with
  | .out => { s with out := s.out ++ text }
  | .err => { s with err := s.err ++ text }

/-- Writes a text to a channel. -/
def write (channel : Channel) (text : String) : ExceptT Fault (StateM Streams) Unit :=
  ExceptT.mk fun s =>
    match s.refusal channel with
    | some fault => (.error fault, s)
    | none => (.ok (), s.append channel text)

theorem write_of_refusal_none {s : Streams} {channel : Channel} (text : String)
    (h : s.refusal channel = none) :
    (write channel text).run.run s = (.ok (), s.append channel text) := by
  show (match s.refusal channel with
    | some fault => (Except.error fault, s)
    | none => (.ok (), s.append channel text)) = _
  rw [h]

theorem write_of_refusal_some {s : Streams} {channel : Channel} {fault : Fault} (text : String)
    (h : s.refusal channel = some fault) :
    (write channel text).run.run s = (.error fault, s) := by
  show (match s.refusal channel with
    | some fault => (Except.error fault, s)
    | none => (.ok (), s.append channel text)) = _
  rw [h]

end Streams

end EditionCheck
