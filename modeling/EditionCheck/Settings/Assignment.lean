import EditionCheck.Settings.Environment
import EditionCheck.Text.Alphanumeric
import EditionCheck.Text.Blank
import EditionCheck.Text.Bytes

/-!
# Assignment files

A file that gives values to variables, one assignment a line. A value may be quoted and then run over
several lines, text behind ` #` is a comment, and `$name` or `${name}` outside single quotes stands for
the value of a variable. Values that a variable already has are kept, so the first assignment wins, and
the file is read up to the first line that is no assignment. In front of such a line, two things crash the
program: a value that no variable can have, and a comment whose offset lies inside a character.

Main statement: `load_kept` — a variable that has a text keeps it.
-/

set_option autoImplicit false

namespace EditionCheck.Settings

open EditionCheck.Text

/-! ## Lines -/

/-- How a line ends. -/
inductive LineState where
  | complete
  | blank
  | escape
  | single
  | singleEscape
  | double
  | doubleEscape
  deriving DecidableEq, Repr

/-- The state behind a character; a comment has none. -/
def LineState.next (c : Char) : LineState → Option LineState
  | blank =>
    if c == '#' then none
    else if c == '\\' then some escape
    else if c == '\x22' then some double
    else if c == '\x27' then some single
    else some complete
  | complete =>
    if isWhiteSpace c && c != '\n' && c != '\r' then some blank
    else if c == '\\' then some escape
    else if c == '\x22' then some double
    else if c == '\x27' then some single
    else some complete
  | escape => some complete
  | double =>
    if c == '\\' then some doubleEscape else if c == '\x22' then some complete else some double
  | doubleEscape => some double
  | single =>
    if c == '\\' then some singleEscape else if c == '\x27' then some complete else some single
  | singleEscape => some single

/-- The state at the end of a text, or the offset of the comment in it. -/
def LineState.run (offset : Nat) : LineState → List Char → LineState ⊕ Nat
  | st, [] => .inl st
  | st, c :: cs =>
    match st.next c with
    | some st' => run (offset + c.utf8Size) st' cs
    | none => .inr offset

/-- The lines of some bytes, each with its line feed. -/
def physicalLines : List UInt8 → List (List UInt8)
  | [] => []
  | b :: rest =>
    if b = 10 then [b] :: physicalLines rest
    else
      match physicalLines rest with
      | [] => [[b]]
      | line :: lines =>
        (b :: line) :: lines

/-- A text without the line break at its end. -/
def dropLineBreak (cs : List Char) : List Char :=
  if cs.getLast? = some '\n' then
    let shorter := cs.dropLast
    if shorter.getLast? = some '\r' then shorter.dropLast else shorter
  else cs

/-- What the lines of a file give, where lines that belong together are joined. -/
inductive Line where
  | text (chars : List Char)
  /-- The line cannot be read, or does not end. -/
  | broken
  /-- The offset of a comment lies inside a character. -/
  | torn
  deriving DecidableEq, Repr

/-- Joins lines that belong together and cuts comments off. `held` is the start of an unfinished line.
A line that is broken or torn ends the list. A comment behind a value of several lines is cut off by its
offset in its own line. -/
def logicalLines (state : LineState) (held : List Char) : List (List UInt8) → List Line
  | [] => if state = .complete then [] else [.broken]
  | bytes :: rest =>
    match Utf8.decode? bytes with
    | none => [.broken]
    | some line =>
      let all := held ++ line
      if (trimStart all).head? == some '#' then .text [] :: logicalLines .complete [] rest
      else
        match state.run 0 line with
        | .inr offset =>
          match sliceTo? all offset with
          | some front => .text front :: logicalLines .complete [] rest
          | none => [.torn]
        | .inl .complete => .text (dropLineBreak all) :: logicalLines .complete [] rest
        | .inl state' => logicalLines state' all rest

/-! ## Values -/

/-- Where the reader of a value stands. `inDouble` says whether double quotes are open. -/
inductive ValueState where
  | plain
  | double
  | single
  | escape (inDouble : Bool)
  /-- Behind the value, where only a comment may follow. -/
  | behind
  /-- In the name of a variable behind a dollar sign. -/
  | name (inDouble : Bool) (name : List Char)
  /-- In the name of a variable in braces. -/
  | braced (inDouble : Bool) (name : List Char)
  deriving DecidableEq, Repr

/-- The state outside variables. -/
def ValueState.outside (inDouble : Bool) : ValueState := if inDouble then double else plain

/-- What a variable stands for. -/
def substitute (env : Environment) (name : List Char) : List Char := (env.text? name).getD []

/-- The text that a value spells, where `state` is the state in front of it. -/
def readValue (env : Environment) (state : ValueState) (cs : List Char) : Option (List Char) :=
  match state, cs with
  | .plain, [] => some []
  | .escape false, [] => some []
  | .behind, [] => some []
  | .name false name, [] => some (substitute env name)
  | _, [] => none
  | .behind, c :: rest =>
    if c == ' ' || c == '\t' then readValue env .behind rest
    else if c == '#' then some []
    else none
  | .escape inDouble, c :: rest =>
    if c == '\\' || c == '\x27' || c == '\x22' || c == '$' || c == ' ' then
      (readValue env (.outside inDouble) rest).map (c :: ·)
    else if c == 'n' then (readValue env (.outside inDouble) rest).map ('\n' :: ·)
    else none
  | .single, c :: rest =>
    if c == '\x27' then readValue env .plain rest else (readValue env .single rest).map (c :: ·)
  | .name inDouble name, c :: rest =>
    if isAlphanumeric c then readValue env (.name inDouble (name ++ [c])) rest
    else if c == '\x7b' && name.isEmpty then readValue env (.braced inDouble []) rest
    else if c == '$' then
      (readValue env (.name inDouble []) rest).map (substitute env name ++ ·)
    else (readValue env (.outside inDouble) rest).map (substitute env name ++ c :: ·)
  | .braced inDouble name, c :: rest =>
    if c == '\x7d' then
      (readValue env (.outside inDouble) rest).map (substitute env name ++ ·)
    else readValue env (.braced inDouble (name ++ [c])) rest
  | .double, c :: rest =>
    if c == '$' then readValue env (.name true []) rest
    else if c == '\x22' then readValue env .plain rest
    else if c == '\\' then readValue env (.escape true) rest
    else (readValue env .double rest).map (c :: ·)
  | .plain, c :: rest =>
    if c == '$' then readValue env (.name false []) rest
    else if c == '\x27' then readValue env .single rest
    else if c == '\x22' then readValue env .double rest
    else if c == '\\' then readValue env (.escape false) rest
    else if c == ' ' || c == '\t' then readValue env .behind rest
    else (readValue env .plain rest).map (c :: ·)

/-! ## Assignments -/

/-- A variable and a value for it. -/
structure Assignment where
  name : List Char
  value : List Char
  deriving DecidableEq, Repr

/-- Whether a character may stand in the name of a variable. -/
def isVariablePart (c : Char) : Bool := c.isAlphanum || c == '_' || c == '.'

/-- The name of a variable at the start of a text, and what follows it. -/
def readName (cs : List Char) : Option (List Char × List Char) :=
  match cs with
  | c :: _ =>
    if c.isAlpha || c == '_' then
      let name := cs.takeWhile isVariablePart
      some (name, cs.drop name.length)
    else none
  | [] => none

/-- The assignment of what follows an equals sign. -/
def assign (env : Environment) (name cs : List Char) : Option Assignment :=
  let value := trimStart cs
  if value.isEmpty || value.head? == some '#' then some ⟨name, []⟩
  else (readValue env .plain value).map (Assignment.mk name)

/-- The assignment of what follows a name; blanks may stand before the equals sign. -/
def assignBehind (env : Environment) (name cs : List Char) : Option Assignment :=
  match trimStart cs with
  | '=' :: rest => assign env name rest
  | _ => none

/-- The assignments of a line, which are one or, in a blank line, none. The word `export` may stand
before a name and may be one itself. -/
def readLine (env : Environment) (line : List Char) : Option (List Assignment) :=
  let body := trimStart (trimEnd line)
  if body.isEmpty || body.head? == some '#' then some []
  else do
    let (name, rest) ← readName body
    let direct := assignBehind env name rest
    if name == ['e', 'x', 'p', 'o', 'r', 't'] && (trimStart rest).head? != some '=' then
      let (name', rest') ← readName (trimStart rest)
      return [← assignBehind env name' rest']
    else return [← direct]

/-- Takes over some assignments. -/
def takeOver (env : Environment) (as : List Assignment) : Except Crash Environment :=
  as.foldlM (fun e a => e.setMissing a.name a.value) env

/-- Takes over the assignments of some lines, up to the first line that is none. -/
def loadLines (env : Environment) : List Line → Except Crash Environment
  | [] => .ok env
  | .broken :: _ => .ok env
  | .torn :: _ => .error .tornCharacter
  | .text line :: rest =>
    match readLine env line with
    | none => .ok env
    | some as => do loadLines (← takeOver env as) rest

/-- The bytes without a byte order mark at their start. -/
def dropMark : List UInt8 → List UInt8
  | 0xEF :: 0xBB :: 0xBF :: rest => rest
  | bytes => bytes

/-- The lines of a file. -/
def linesOf (bytes : List UInt8) : List Line :=
  logicalLines .complete [] (physicalLines (dropMark bytes))

/-- Takes over the assignments of a file. -/
def load (env : Environment) (bytes : List UInt8) : Except Crash Environment :=
  loadLines env (linesOf bytes)

/-! ## What is kept -/

section

variable {env env' : Environment} {name old : List Char}

theorem text?_setMissing_kept {a : Assignment} (h : env.text? name = some old)
    (hset : env.setMissing a.name a.value = .ok env') : env'.text? name = some old := by
  by_cases hmissing : (env.text? a.name).isNone
  · have hne : a.name ≠ name := by
      rintro rfl
      rw [h] at hmissing
      cases hmissing
    rw [Environment.setMissing_of_isNone hmissing, Environment.set_eq_ok_iff] at hset
    obtain ⟨-, rfl⟩ := hset
    rw [Environment.text?_put_of_ne env a.value hne, h]
  · rw [Environment.setMissing, if_neg hmissing] at hset
    exact Except.ok.inj hset ▸ h

theorem takeOver_cons (env : Environment) (a : Assignment) (as : List Assignment) :
    takeOver env (a :: as) = env.setMissing a.name a.value >>= fun e => takeOver e as :=
  List.foldlM_cons

theorem takeOver_kept {as : List Assignment} (h : env.text? name = some old)
    (has : takeOver env as = .ok env') : env'.text? name = some old := by
  induction as generalizing env with
  | nil => exact Except.ok.inj has ▸ h
  | cons a as ih =>
    rw [takeOver_cons] at has
    obtain ⟨e, hset, hrest⟩ := exists_of_bind_ok has
    exact ih (text?_setMissing_kept h hset) hrest

theorem loadLines_kept {lines : List Line} (h : env.text? name = some old)
    (hload : loadLines env lines = .ok env') : env'.text? name = some old := by
  induction lines generalizing env with
  | nil => exact Except.ok.inj hload ▸ h
  | cons line rest ih =>
    cases line with
    | broken => exact Except.ok.inj hload ▸ h
    | torn => cases hload
    | text line =>
      rw [loadLines] at hload
      split at hload
      · exact Except.ok.inj hload ▸ h
      · obtain ⟨e, has, hrest⟩ := exists_of_bind_ok hload
        exact ih (takeOver_kept h has) hrest

theorem load_kept {bytes : List UInt8} (h : env.text? name = some old)
    (hload : load env bytes = .ok env') : env'.text? name = some old :=
  loadLines_kept h hload

end

end EditionCheck.Settings
