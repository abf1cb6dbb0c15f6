import EditionCheck.Scan.Literal
import EditionCheck.Text.Bytes

/-!
# Literals byte by byte

`Scan.Literal` finds the features of a literal among its characters. Here are the loops that find them
among the bytes of its text. Such a loop keeps a position and nothing of the text: for an escape it skips
two bytes, however long the escaped character is, it looks ahead by single bytes, and it cuts the text
where it stands, which fails inside of a character.

* `turns` — a loop for a number of turns, with no promise that it ends by then;
* `codePointTurn` — one turn of the search for a code point escape, as `spellsCodePoint` has it;
* `patternTurn` — one turn of the search for newer syntax in a pattern, as `bodyFeature` has it.
-/

set_option autoImplicit false

namespace EditionCheck.Scan

open EditionCheck.Text

/-! ## Loops -/

/-- What a turn of a loop comes to: it goes on with a new state, it returns, or it fails where it cuts a
text inside of a character. -/
inductive Turn (σ α : Type) where
  | next (state : σ)
  | done (result : α)
  | torn
  deriving DecidableEq, Repr

/-- Runs a loop for a number of turns, or until it returns or fails. -/
def turns {σ α : Type} (turn : σ → Turn σ α) : Nat → σ → Turn σ α
  | 0, s => .next s
  | n + 1, s =>
    match turn s with
    | .next s => turns turn n s
    | ended => ended

/-! ## Code point escapes -/

/-- One turn of the search for a code point escape. The state is a position. -/
def codePointTurn (bytes : List UInt8) (i : Nat) : Turn Nat Bool :=
  match bytes[i]? with
  | none => .done false
  | some b =>
    if b = '\\'.toUInt8 then
      if bytes[i + 1]? = some 'u'.toUInt8 ∧ bytes[i + 2]? = some '{'.toUInt8 then .done true
      else .next (i + 2)
    else .next (i + 1)

/-! ## Patterns -/

/-- Where the search in a pattern stands, and whether it takes this for the inside of a class. -/
structure PatternState where
  position : Nat
  inClass : Bool
  deriving DecidableEq, Repr

/-- The group that `(?<` opens, by the byte behind. -/
def angleGroupBefore (b : Option UInt8) : Feature :=
  if b = some '='.toUInt8 ∨ b = some '!'.toUInt8 then .regExpLookbehind else .regExpNamedGroup

/-- One turn of the search for newer syntax in a pattern. -/
def patternTurn (body : List Char) (s : PatternState) : Turn PatternState (Option Feature) :=
  let bytes := Utf8.encode body
  let i := s.position
  match bytes[i]? with
  | none => .done none
  | some b =>
    if b = '\\'.toUInt8 then
      if s.inClass = false
          ∧ (bytes[i + 1]? = some 'p'.toUInt8 ∨ bytes[i + 1]? = some 'P'.toUInt8)
          ∧ bytes[i + 2]? = some '{'.toUInt8 then .done (some .regExpPropertyEscape)
      else .next ⟨i + 2, s.inClass⟩
    else if b = '['.toUInt8 then .next ⟨i + 1, true⟩
    else if b = ']'.toUInt8 then .next ⟨i + 1, false⟩
    else if b = '('.toUInt8 ∧ s.inClass = false then
      match sliceFrom? body i with
      | none => .torn
      | some rest =>
        if ['(', '?', '<'].isPrefixOf rest then .done (some (angleGroupBefore bytes[i + 3]?))
        else .next ⟨i + 1, s.inClass⟩
    else .next ⟨i + 1, s.inClass⟩

end EditionCheck.Scan
