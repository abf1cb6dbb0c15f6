import EditionCheck.Script.Statement

/-!
# Programs

Ties the productions of the grammar together and reads a whole text as a script. Every production that
refers back has taken a token before it does, so productions are never nested more deeply than the text
is long, and the number of characters bounds the recursion.

Main statement: `exists_program` — the tree of a script is what the production for programs reads.
-/

set_option autoImplicit false

namespace EditionCheck.Script

open EditionCheck.Text Reader

/-- The grammar, with productions nested up to a given depth. -/
def Rules.upTo : Nat → Rules
  | 0 => Rules.none
  | n + 1 => {
      expression := fun s => Script.expression (Rules.upTo n) s
      assignment := fun s => Script.assignment (Rules.upTo n) s
      unary := fun s => Script.unary (Rules.upTo n) s
      binary := fun s level => Script.binary (Rules.upTo n) s level
      member := fun s calls => Script.member (Rules.upTo n) s calls
      bindingTarget := fun s => Script.bindingTarget (Rules.upTo n) s
      statement := fun s => Script.statement (Rules.upTo n) s
      listItem := fun s => Script.listItem (Rules.upTo n) s }

/-- Reads the statements of a script up to the end of its text. -/
def program (g : Rules) (text : List Char) : Reader Node := do
  let items ← bodyItems g {} (·.lexeme == .endOfText)
  return Node.mk .program ⟨0, byteLength text⟩ items

/-- Where reading a text begins. -/
def Place.first (text : List Char) : Place :=
  { token := firstToken text, lastStop := 0, bound := text.length + 2 }

/-- Reads a text as a script: its tree, or all errors that reading it has met. -/
def parse (text : List Char) : Except (List SyntaxError) Node :=
  match program (Rules.upTo (text.length + 2)) text (Place.first text) {} with
  | (.error e, notes) => .error (notes.errors (some e))
  | (.ok (n, _), notes) =>
    match notes.errors none with
    | [] => .ok n
    | errors => .error errors

theorem exists_program {text : List Char} {n : Node} (h : parse text = .ok n) :
    ∃ q, (program (Rules.upTo (text.length + 2)) text (Place.first text) {}).1 = .ok (n, q) := by
  unfold parse at h
  split at h
  · cases h
  · next m q notes hrun =>
    split at h
    · cases h
      exact ⟨q, congrArg Prod.fst hrun⟩
    · cases h

/-- What is computed of the tree of a script holds of the tree. -/
theorem exists_of_any_parse {text : List Char} {f : Node → Bool}
    (h : (parse text).toOption.any f = true) : ∃ n, parse text = .ok n ∧ f n = true := by
  cases hparse : parse text with
  | error e =>
    rw [hparse] at h
    cases h
  | ok n =>
    rw [hparse] at h
    exact ⟨n, rfl, h⟩

end EditionCheck.Script
