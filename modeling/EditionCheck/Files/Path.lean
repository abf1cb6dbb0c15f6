import EditionCheck.Text.Bytes

/-!
# Paths

The system takes a path as bytes, which need not be a text. They are cut into names at slashes, and a
name is put behind a path. What is told of a path keeps it apart whether it is a text (`Path`).

Main statements: `names_append_slash` — cutting a path in front of a slash cuts its list of names —,
`Path.ofBytes_injective` — different bytes are told apart —, `Path.shown_ofBytes`.
-/

set_option autoImplicit false

namespace EditionCheck.Files

open EditionCheck.Text

/-! ## Paths in reports -/

/-- A path, as it is reported. -/
inductive Path where
  | text (chars : List Char)
  /-- A path that is no text. -/
  | raw (bytes : List UInt8) (broken : Utf8.decode? bytes = none)
  deriving DecidableEq

namespace Path

/-- The path with the given bytes. -/
def ofBytes (bytes : List UInt8) : Path :=
  match h : Utf8.decode? bytes with
  | some chars => text chars
  | none => raw bytes h

/-- The bytes of a path. -/
def bytes : Path → List UInt8
  | text chars => Utf8.encode chars
  | raw bytes _ => bytes

/-- The text of a path in messages, where U+FFFD stands for what is no text. -/
def shown : Path → List Char
  | text chars => chars
  | raw bytes _ => Utf8.lossy bytes

/-- The text of a path that is one. -/
def text? : Path → Option (List Char)
  | text chars => some chars
  | raw _ _ => none

theorem bytes_ofBytes (bytes : List UInt8) : (ofBytes bytes).bytes = bytes := by
  unfold ofBytes
  split
  · next h => exact (Utf8.decode?_eq_some_iff_encode.1 h).symm
  · rfl

theorem ofBytes_injective {a b : List UInt8} (h : ofBytes a = ofBytes b) : a = b := by
  rw [← bytes_ofBytes a, h, bytes_ofBytes]

theorem ofBytes_encode (cs : List Char) : ofBytes (Utf8.encode cs) = text cs := by
  unfold ofBytes
  split
  · next h =>
    rw [Utf8.decode?_encode] at h
    rw [Option.some.inj h]
  · next h =>
    rw [Utf8.decode?_encode] at h
    simp at h

theorem shown_ofBytes (bytes : List UInt8) : (ofBytes bytes).shown = Utf8.lossy bytes := by
  unfold ofBytes
  split
  · next h => exact (Utf8.lossy_of_decode? h).symm
  · rfl

theorem text?_ofBytes (bytes : List UInt8) : (ofBytes bytes).text? = Utf8.decode? bytes := by
  unfold ofBytes
  split
  · next h => exact h.symm
  · next h => exact h.symm

end Path

/-! ## Names -/

/-- The byte that separates names. -/
abbrev slash : UInt8 := 47

/-- The byte of a dot. -/
abbrev dot : UInt8 := 46

/-- The names between the slashes of a path. Empty names stand before a leading slash, behind a
trailing one and between two in a row. -/
def names (path : List UInt8) : List (List UInt8) := path.splitOn slash

theorem names_append_slash (a b : List UInt8) : names (a ++ slash :: b) = names a ++ names b :=
  List.splitOn_append_cons_self a b

/-- Whether a path starts at the root. -/
def isAbsolute (path : List UInt8) : Bool := path.head? == some slash

/-- The path of a name below another path. A slash is put between them unless there is one, and an
absolute path replaces what it is put behind. -/
def join (base name : List UInt8) : List UInt8 :=
  if isAbsolute name then name
  else if base.isEmpty || base.getLast? == some slash then base ++ name
  else base ++ slash :: name

/-- Whether a path is a spelling of the current directory, with dots and slashes only. -/
def isCurrent (path : List UInt8) : Bool :=
  match names path with
  | n :: ns => n == [dot] && ns.all fun m => m == [] || m == [dot]
  | [] => false

end EditionCheck.Files
