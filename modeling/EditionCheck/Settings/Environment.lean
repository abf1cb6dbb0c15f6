import EditionCheck.Text.Quoted
import EditionCheck.Text.Utf8

/-!
# Environments

The variables that a program is started with. A value is bytes; one that is not valid UTF-8 counts as
missing wherever a text is asked for. The program can give values to variables itself, but a value with
the character U+0000 crashes it.

Main statements: `text?_put_self` and `text?_put_of_ne` — what a new value changes —, `set_eq_ok_iff`.
-/

set_option autoImplicit false

namespace EditionCheck.Settings

open EditionCheck.Text

/-! ## Crashes -/

/-- Why the program stops where it stands, without an error of its own. -/
inductive Crash where
  /-- A variable is given a value that no variable can have. -/
  | nulInValue (name value : List Char)
  /-- A text is cut inside a character. -/
  | tornCharacter
  deriving DecidableEq, Repr

/-- The wording of a crash. -/
def Crash.message : Crash → String
  | nulInValue name value =>
    "failed to set environment variable \x60" ++ String.ofList (quoteChars name) ++ "\x60 to \x60"
      ++ String.ofList (quoteChars value) ++ "\x60: file name contained an unexpected NUL byte"
  | tornCharacter => "assertion failed: self.is_char_boundary(new_len)"

/-- What is computed without a crash is computed step by step. -/
theorem exists_of_bind_ok {α β : Type} {x : Except Crash α} {f : α → Except Crash β} {b : β}
    (h : x >>= f = .ok b) : ∃ a, x = .ok a ∧ f a = .ok b := by
  cases x with
  | error crash => cases h
  | ok a => exact ⟨a, rfl, h⟩

/-! ## Variables -/

/-- Variables with their values. -/
structure Environment where
  bindings : List (List Char × List UInt8)

namespace Environment

/-- The environment without variables. -/
def empty : Environment := ⟨[]⟩

/-- The bytes of a variable. -/
def bytes? (env : Environment) (name : List Char) : Option (List UInt8) :=
  (env.bindings.find? fun v => v.1 == name).map (·.2)

/-- The text of a variable. -/
def text? (env : Environment) (name : List Char) : Option (List Char) :=
  (env.bytes? name).bind Utf8.decode?

/-- The environment with a text for a variable. -/
def put (env : Environment) (name value : List Char) : Environment :=
  ⟨(name, Utf8.encode value) :: env.bindings⟩

/-- Gives a text to a variable. -/
def set (env : Environment) (name value : List Char) : Except Crash Environment :=
  if '\x00' ∈ value then .error (.nulInValue name value) else .ok (env.put name value)

/-- Gives a text to a variable that has none. -/
def setMissing (env : Environment) (name value : List Char) : Except Crash Environment :=
  if (env.text? name).isNone then env.set name value else .ok env

theorem text?_put_self (env : Environment) (name value : List Char) :
    (env.put name value).text? name = some value := by
  simp [text?, bytes?, put, Utf8.decode?_encode]

theorem text?_put_of_ne (env : Environment) {name other : List Char} (value : List Char)
    (h : name ≠ other) : (env.put name value).text? other = env.text? other := by
  simp [text?, bytes?, put, h]

theorem set_eq_ok_iff {env env' : Environment} {name value : List Char} :
    env.set name value = .ok env' ↔ '\x00' ∉ value ∧ env' = env.put name value := by
  unfold set
  split
  · next h => simp [h]
  · next h => simp [h, eq_comm]

theorem setMissing_of_isSome {env : Environment} {name : List Char} (h : (env.text? name).isSome)
    (value : List Char) : env.setMissing name value = .ok env := by
  obtain ⟨old, hold⟩ := Option.isSome_iff_exists.1 h
  simp [setMissing, hold]

theorem setMissing_of_isNone {env : Environment} {name : List Char} (h : (env.text? name).isNone)
    (value : List Char) : env.setMissing name value = env.set name value := by
  rw [setMissing, if_pos h]

end Environment

end EditionCheck.Settings
