import EditionCheck.Files.Access
import EditionCheck.Glob.Pattern

/-!
# Walking a tree for a pattern

The paths that a pattern selects, in the order of the walk: the names of a directory are visited in
their order, and what is found below a directory by a longer match comes before what is found by
descending further. A name without wildcards is looked up and not searched for, so that it may also be
`.`, `..` or empty.

Main statement: `mem_sortNames` — sorting loses and adds no name.

The walk is bounded by a depth that no path of the system reaches, since each step down lengthens the
path or uses up a name of the pattern.
-/

set_option autoImplicit false

namespace EditionCheck.Glob

open EditionCheck.Files

/-- A directory that could not be listed. -/
structure Unlisted where
  path : List UInt8
  fault : Fault
  deriving DecidableEq, Repr

/-- Whether a name does not come after another one: they are compared byte by byte, and a name comes
before its extensions. -/
def notAfter : List UInt8 → List UInt8 → Bool
  | [], _ => true
  | _ :: _, [] => false
  | a :: as, b :: bs => decide (a < b) || (a == b && notAfter as bs)

/-- The names of a directory in the order in which they are visited. -/
def sortNames (names : List (List UInt8)) : List (List UInt8) := names.mergeSort notAfter

theorem mem_sortNames {name : List UInt8} {names : List (List UInt8)} :
    name ∈ sortNames names ↔ name ∈ names :=
  (List.mergeSort_perm names notAfter).mem_iff

/-- The names for the directory itself and the one above it, which no listing has. -/
def dotNames : List (List UInt8) := [[dot, dot], [dot]]

/-- Whether a name is one of the two. -/
def isDotName (name : List UInt8) : Bool := dotNames.contains name

section

variable {m : Type → Type} [Monad m]

/-- A walk ends with paths or at a directory that could not be listed. -/
abbrev Walk (m : Type → Type) := ExceptT Unlisted m (List (List UInt8))

/-- The paths that several walks find, one walk after the other. -/
def inTurn {α : Type} (xs : List α) (f : α → Walk m) : Walk m := do
  return (← xs.mapM f).flatten

/-- A path that a pattern has matched to its end. -/
def ending (files : Access m) (directoriesOnly : Bool) (path : List UInt8) : Walk m := do
  if directoriesOnly then
    if ← files.isDirectory path then pure [path] else pure []
  else pure [path]

/-- What is found from a path whose last name has been matched, where `fill` searches below it. -/
def onward (files : Access m) (directoriesOnly : Bool) (fill : List Component → List UInt8 → Walk m)
    (rest : List Component) (path : List UInt8) : Walk m :=
  match rest with
  | [] => ending files directoriesOnly path
  | _ :: _ => fill rest path

/-- What is found from a path whose last name may match the first component. -/
def onMatch (files : Access m) (directoriesOnly : Bool) (fill : List Component → List UInt8 → Walk m)
    (components : List Component) (path name : List UInt8) : Walk m :=
  match components with
  | [] => pure []
  | c :: rest => if c.matches name then onward files directoriesOnly fill rest path else pure []

/-- What is found from an entry of a directory. For the component `**` the entry may stand for the
component behind it, and a directory is searched with the same components again. -/
def visit (files : Access m) (directoriesOnly : Bool) (fill : List Component → List UInt8 → Walk m)
    (components : List Component) (path name : List UInt8) : Walk m :=
  match components with
  | .recursive :: rest => do
    let later := rest.dropWhile (· == .recursive)
    let isDirectory ← files.isDirectory path
    let here ← match later with
      | [] => pure (if isDirectory then [path] else [])
      | _ :: _ => onMatch files directoriesOnly fill later path name
    let below ← if isDirectory then fill (.recursive :: later) path else pure []
    return here ++ below
  | _ => onMatch files directoriesOnly fill components path name

/-- The path of a name in a directory; below the current directory it is the name. -/
def childPath (path name : List UInt8) : List UInt8 :=
  if isCurrent path then name else join path name

/-- The names of the directory itself and the one above it that a component selects. They are tried
only where the component spells a dot first. -/
def selectedDotNames (c : Component) : List (List UInt8) :=
  if c.startsWithDot then dotNames.filter c.matches else []

/-- What is found below a path, going down at most `depth` steps. -/
def fill (files : Access m) (directoriesOnly : Bool) : Nat → List Component → List UInt8 → Walk m
  | 0, _, _ => pure []
  | _ + 1, [], _ => pure []
  | depth + 1, c :: rest, path => do
    let isDirectory ← files.isDirectory path
    let deeper := fill files directoriesOnly depth
    match c with
    | .literal name =>
      let next := childPath path name
      let found ← if isDotName name then pure isDirectory else files.exists? next
      if found then onward files directoriesOnly deeper rest next else pure []
    | _ =>
      if isDirectory then
        match ← files.list path with
        | .error fault => throw ⟨path, fault⟩
        | .ok names =>
          let dots ← inTurn (selectedDotNames c) fun name =>
            onward files directoriesOnly deeper rest (join path name)
          let entries ← inTurn (sortNames names) fun name =>
            visit files directoriesOnly deeper (c :: rest) (childPath path name) name
          return dots ++ entries
      else pure []

/-- A depth that no walk for a pattern reaches: a path has fewer than 4096 bytes. -/
def Pattern.depth (p : Pattern) : Nat := 4100 + 2 * p.components.length

/-- The paths that a pattern selects. -/
def Pattern.select (p : Pattern) (files : Access m) : Walk m :=
  fill files p.directoriesOnly p.depth p.components (if p.absolute then [slash] else [dot])

end

end EditionCheck.Glob
