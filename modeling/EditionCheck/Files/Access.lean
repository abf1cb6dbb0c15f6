import EditionCheck.Files.Path

/-!
# Access to files

What the checker asks of a file system: what a path leads to, the names in a directory, the bytes of a
file. A path is given as bytes, and so is a name. The three questions are a record over a monad, so that
they can be answered by the machine or by a value (`Files.Tree`). An answer that fails gives its cause.
-/

set_option autoImplicit false

namespace EditionCheck.Files

open EditionCheck.Text

/-- Why a path cannot be used, or why writing fails. -/
inductive Fault where
  | notFound
  | notDirectory
  | isDirectory
  | tooManyLinks
  | nameTooLong
  | nulInName
  | notText
  /-- A cause that the system words. -/
  | other (message : String)
  deriving DecidableEq, Repr

/-- The wording of a cause. -/
def Fault.message : Fault → String
  | notFound => "No such file or directory (os error 2)"
  | notDirectory => "Not a directory (os error 20)"
  | isDirectory => "Is a directory (os error 21)"
  | tooManyLinks => "Too many levels of symbolic links (os error 40)"
  | nameTooLong => "File name too long (os error 36)"
  | nulInName => "file name contained an unexpected NUL byte"
  | notText => "stream did not contain valid UTF-8"
  | other message => message

/-- What a path leads to when all links are followed. -/
inductive Kind where
  | file
  | directory
  deriving DecidableEq, Repr

/-- The questions to a file system. -/
structure Access (m : Type → Type) where
  /-- What a path leads to. -/
  kind : List UInt8 → m (Except Fault Kind)
  /-- The names in a directory. -/
  list : List UInt8 → m (Except Fault (List (List UInt8)))
  /-- The bytes of a file. -/
  read : List UInt8 → m (Except Fault (List UInt8))

namespace Access

variable {m : Type → Type} [Monad m]

/-- Whether a path leads anywhere. -/
def exists? (files : Access m) (path : List UInt8) : m Bool := do
  match ← files.kind path with
  | .ok _ => pure true
  | .error _ => pure false

/-- Whether a path leads to a directory. -/
def isDirectory (files : Access m) (path : List UInt8) : m Bool := do
  match ← files.kind path with
  | .ok .directory => pure true
  | _ => pure false

/-- The text of a file. -/
def readText (files : Access m) (path : List UInt8) : m (Except Fault String) := do
  match ← files.read path with
  | .error fault => pure (.error fault)
  | .ok bytes =>
    match Utf8.decode? bytes with
    | some chars => pure (.ok (String.ofList chars))
    | none => pure (.error .notText)

end Access

end EditionCheck.Files
