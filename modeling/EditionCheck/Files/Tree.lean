import EditionCheck.Files.Access

/-!
# File trees

A file system as a value: the entries below the root, each with the names that lead to it. A path is
resolved name by name, links are followed on the way, and the limits on names, paths and links are those
of the system.

Main statement: `mem_children_iff` — the names in a directory are the last names of the entries in it.
-/

set_option autoImplicit false

namespace EditionCheck.Files

/-- What stands at a place in a tree. -/
inductive Entry where
  | file (bytes : List UInt8)
  | directory
  | link (target : List UInt8)
  deriving DecidableEq, Repr

/-- The names that lead from the root to an entry. -/
abbrev Place := List (List UInt8)

/-- A file system as a value. -/
structure Tree where
  entries : List (Place × Entry)

namespace Tree

/-- The tree that holds the root only. -/
def empty : Tree := ⟨[]⟩

/-- What stands at a place. -/
def lookup? (t : Tree) (place : Place) : Option Entry :=
  if place = [] then some .directory
  else (t.entries.find? fun e => e.1 == place).map (·.2)

/-- The tree with an entry put at a place. -/
def put (t : Tree) (place : Place) (entry : Entry) : Tree :=
  ⟨(t.entries.filter fun e => !(e.1 == place)) ++ [(place, entry)]⟩

/-! ## Resolving paths -/

/-- The longest name, in bytes. -/
def nameLimit : Nat := 255

/-- The length in bytes that a path stays below. -/
def pathLimit : Nat := 4096

/-- The number of links that may be followed for one path. -/
def linkLimit : Nat := 40

/-- Goes from a place along some names up to a link, where `follow` goes on. An empty name stands for the
place itself, which must be a directory. -/
def walkNames (t : Tree) (follow : Place → List (List UInt8) → Except Fault Place) (place : Place)
    (todo : List (List UInt8)) : Except Fault Place :=
  match todo with
  | [] => .ok place
  | name :: rest =>
    if t.lookup? place ≠ some .directory then .error .notDirectory
    else if name = [] ∨ name = [dot] then walkNames t follow place rest
    else if name = [dot, dot] then walkNames t follow place.dropLast rest
    else if nameLimit < name.length then .error .nameTooLong
    else
      match t.lookup? (place ++ [name]) with
      | none => .error .notFound
      | some (.link target) => follow (if isAbsolute target then [] else place) (names target ++ rest)
      | some _ => walkNames t follow (place ++ [name]) rest

/-- Goes from a place along some names, following at most `links` links. -/
def walk (t : Tree) : (links : Nat) → Place → List (List UInt8) → Except Fault Place
  | 0 => t.walkNames fun _ _ => .error .tooManyLinks
  | links + 1 => t.walkNames (t.walk links)

/-- The place that a path leads to from a directory. -/
def resolve (t : Tree) (current : Place) (path : List UInt8) : Except Fault Place :=
  if path = [] then .error .notFound
  else if 0 ∈ path then .error .nulInName
  else if pathLimit ≤ path.length then .error .nameTooLong
  else walk t linkLimit (if isAbsolute path then [] else current) (names path)

/-! ## Answers -/

/-- The names in a directory. -/
def children (t : Tree) (place : Place) : List (List UInt8) :=
  t.entries.filterMap fun e => if e.1.dropLast = place then e.1.getLast? else none

theorem mem_children_iff {t : Tree} {place : Place} {name : List UInt8} :
    name ∈ t.children place ↔ ∃ e ∈ t.entries, e.1 = place ++ [name] := by
  simp only [children, List.mem_filterMap]
  constructor
  · rintro ⟨e, he, h⟩
    refine ⟨e, he, ?_⟩
    split at h
    · next hp =>
      obtain ⟨front, hfront⟩ := List.getLast?_eq_some_iff.1 h
      rw [← hp, hfront, List.dropLast_concat]
    · simp at h
  · rintro ⟨e, he, h⟩
    exact ⟨e, he, by simp [h]⟩

/-- What a place holds for a reader. -/
def kindAt (t : Tree) (place : Place) : Kind :=
  if t.lookup? place = some .directory then .directory else .file

/-- The names in a directory, if a place is one. -/
def listAt (t : Tree) (place : Place) : Except Fault (List (List UInt8)) :=
  if t.lookup? place = some .directory then .ok (t.children place) else .error .notDirectory

/-- The bytes of a file, if a place is one. -/
def readAt (t : Tree) (place : Place) : Except Fault (List UInt8) :=
  match t.lookup? place with
  | some (.file bytes) => .ok bytes
  | some .directory => .error .isDirectory
  | _ => .error .notFound

/-- The files of a tree, as a program that works in a directory sees them. -/
def access {m : Type → Type} [Pure m] (t : Tree) (current : Place) : Access m where
  kind path := pure ((t.resolve current path).map t.kindAt)
  list path := pure ((t.resolve current path).bind t.listAt)
  read path := pure ((t.resolve current path).bind t.readAt)

/-- The path of a place from the root. -/
def pathOf (place : Place) : List UInt8 :=
  if place = [] then [slash] else place.flatMap fun name => slash :: name

/-! ## Building trees -/

/-- The tree with an entry put at the end of some names below a place. The directories on the way are
added where they are missing. -/
def putBelow (t : Tree) (place : Place) (path : List (List UInt8)) (entry : Entry) : Tree :=
  match path with
  | [] => t
  | [name] => t.put (place ++ [name]) entry
  | name :: rest =>
    match t.walk linkLimit place [name] with
    | .ok next => t.putBelow next rest entry
    | .error _ => (t.put (place ++ [name]) .directory).putBelow (place ++ [name]) rest entry

/-- The tree that holds some entries, given with their paths below a place. -/
def ofList (place : Place) (entries : List (List UInt8 × Entry)) : Tree :=
  entries.foldl (fun t e => t.putBelow place (names e.1) e.2)
    (empty.putBelow [] place .directory)

end Tree

end EditionCheck.Files
