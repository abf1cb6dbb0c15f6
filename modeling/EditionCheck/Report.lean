import EditionCheck.Edition
import EditionCheck.Files.Access
import EditionCheck.Settings.Options

/-!
# Reports

What a run counts and collects, what it tells a reporter on the way, and why it can end early.

Main statement: `exitCode_eq_zero_iff` — the exit status is `0` just when no file has failed.
-/

set_option autoImplicit false

namespace EditionCheck

open EditionCheck.Files EditionCheck.Settings EditionCheck.Text

/-- The result of a run. -/
structure Report where
  grammar : Grammar
  /-- The number of files that were checked. -/
  checked : Nat := 0
  /-- The paths of the files that do not match the version, in the order of the checks. -/
  failures : List Path := []
  deriving DecidableEq

namespace Report

/-- Whether all files match. -/
def isSuccess (r : Report) : Bool := r.failures.isEmpty

/-- The exit status of a run with this result. -/
def exitCode (r : Report) : Nat := if r.isSuccess then 0 else 1

theorem exitCode_eq_zero_iff {r : Report} : r.exitCode = 0 ↔ r.failures = [] := by
  cases h : r.failures <;> simp [exitCode, isSuccess, h]

end Report

/-- What a reporter is told. -/
inductive Notice where
  | passed (path : Path) (grammar : Grammar)
  | failed (path : Path) (grammar : Grammar)
  | finished (report : Report)
  deriving DecidableEq

/-- Why a run ends without a result. -/
inductive Obstacle where
  | unreadable (path : List UInt8) (fault : Fault)
  | output (fault : Fault)
  | configuration (error : OptionsError)
  deriving DecidableEq, Repr

/-- The wording of an error. -/
def Obstacle.message : Obstacle → String
  | unreadable path fault =>
    "failed to read " ++ String.ofList (Utf8.lossy path) ++ ": " ++ fault.message
  | output fault => "failed to write report: " ++ fault.message
  | configuration error => "configuration error: " ++ error.message

/-- What is told about the progress of a run. A reporter that fails ends the run. -/
abbrev Reporter (m : Type → Type) := Notice → ExceptT Obstacle m Unit

end EditionCheck
