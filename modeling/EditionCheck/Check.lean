import EditionCheck.Glob.Walk
import EditionCheck.Log.Event
import EditionCheck.Report

/-!
# Checks

A run resolves the version, expands one pattern after the other, and reads, examines and reports one
file after the other. Files that do not match the version are collected; anything else that goes wrong
ends the run there.
-/

set_option autoImplicit false

namespace EditionCheck

open EditionCheck.Files EditionCheck.Glob EditionCheck.Log EditionCheck.Text

/-- What a run works with: the files, and the log. -/
structure Host (m : Type → Type) where
  files : Access m
  log : Event → m Unit

/-- What a run is asked to do. -/
structure CheckRequest where
  /-- The token that names the version. -/
  token : String
  patterns : List String
  deriving DecidableEq, Repr

namespace Host

variable {m : Type → Type} [Monad m]

/-- The version that a token names, recorded in the log. -/
def resolve (host : Host m) (token : String) : m Grammar := do
  let grammar := Grammar.ofToken token
  if Grammar.isFallback token then host.log (.unknownToken token)
  host.log (.resolved token grammar)
  return grammar

/-- The paths that a pattern selects. A text that is no pattern selects the path that it spells, if it
leads anywhere. -/
def expand (host : Host m) (pattern : String) : ExceptT Obstacle m (List (List UInt8)) := do
  match Pattern.ofChars pattern.toList with
  | .error e =>
    host.log (.notPattern pattern e)
    let path := Utf8.encode pattern.toList
    if ← host.files.exists? path then return [path] else return []
  | .ok p =>
    let paths ← ExceptT.adapt (fun u => .unreadable u.path u.fault) (p.select host.files)
    host.log (.expanded pattern paths.length)
    return paths

/-- The text of a file. -/
def read (host : Host m) (path : List UInt8) : ExceptT Obstacle m String :=
  ExceptT.adapt (.unreadable path) (ExceptT.mk (host.files.readText path))

/-- Checks a file: reads it, examines it, and tells the reporter. -/
def checkFile (host : Host m) (reporter : Reporter m) (report : Report) (path : List UInt8) :
    ExceptT Obstacle m Report := do
  let text ← host.read path
  let finding := examine text report.grammar
  (eventsOf report.grammar finding).forM fun e => liftM (host.log e)
  let checked := { report with checked := report.checked + 1 }
  if finding.verdict.isPass then
    reporter (.passed (.ofBytes path) report.grammar)
    return checked
  else
    host.log (.rejected path finding.verdict)
    reporter (.failed (.ofBytes path) report.grammar)
    return { checked with failures := report.failures ++ [.ofBytes path] }

/-- Checks some files in turn. -/
def checkFiles (host : Host m) (reporter : Reporter m) (report : Report) (paths : List (List UInt8)) :
    ExceptT Obstacle m Report :=
  paths.foldlM (host.checkFile reporter) report

/-- Checks the files that a pattern selects. -/
def checkPattern (host : Host m) (reporter : Reporter m) (report : Report) (pattern : String) :
    ExceptT Obstacle m Report := do
  host.checkFiles reporter report (← host.expand pattern)

/-- Carries out a request and tells a reporter about it. -/
def check (host : Host m) (reporter : Reporter m) (request : CheckRequest) :
    ExceptT Obstacle m Report := do
  let grammar ← host.resolve request.token
  let report ← request.patterns.foldlM (host.checkPattern reporter) { grammar }
  host.log (.finished grammar report.checked report.failures.length)
  reporter (.finished report)
  return report

end Host

end EditionCheck
