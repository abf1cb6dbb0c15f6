/-!
# Blank characters

Three classes of blank characters that differ in a few members: the white space of a script, its line
terminators, and the Unicode property `White_Space`, which is used where text is trimmed.

Main statement: `isBlank_of_isWhiteSpace` — apart from U+0085, what has the property `White_Space` is white
space or ends a line of a script.
-/

set_option autoImplicit false

namespace EditionCheck.Text

/-- The characters that end a line of a script: line feed, carriage return, U+2028 and U+2029. -/
def isLineTerminator (c : Char) : Bool :=
  c == '\n' || c == '\r' || c == '\u2028' || c == '\u2029'

/-- The white space of a script, line terminators apart. -/
def isScriptSpace (c : Char) : Bool :=
  c == ' ' || c == '\t' || c == '\x0b' || c == '\x0c' || c == '\u00a0' || c == '\ufeff'
    || c == '\u1680' || (decide ('\u2000' ≤ c) && decide (c ≤ '\u200a'))
    || c == '\u202f' || c == '\u205f' || c == '\u3000'

/-- The Unicode property `White_Space`. -/
def isWhiteSpace (c : Char) : Bool :=
  c == ' ' || (decide ('\t' ≤ c) && decide (c ≤ '\r')) || c == '\u0085' || c == '\u00a0'
    || c == '\u1680' || (decide ('\u2000' ≤ c) && decide (c ≤ '\u200a'))
    || c == '\u2028' || c == '\u2029' || c == '\u202f' || c == '\u205f' || c == '\u3000'

/-- Apart from U+0085, what has the property `White_Space` is white space or ends a line of a script. -/
theorem isBlank_of_isWhiteSpace {c : Char} (h : isWhiteSpace c = true) (hc : c ≠ '\u0085') :
    isLineTerminator c = true ∨ isScriptSpace c = true := by
  simp only [isWhiteSpace, Bool.or_eq_true, beq_iff_eq, Bool.and_eq_true, decide_eq_true_eq] at h
  have hcontrol (h : '\t' ≤ c ∧ c ≤ '\r') :
      c = '\t' ∨ c = '\n' ∨ c = '\x0b' ∨ c = '\x0c' ∨ c = '\r' := by
    obtain ⟨h, h'⟩ := h
    have hc : c.toNat = 9 ∨ c.toNat = 10 ∨ c.toNat = 11 ∨ c.toNat = 12 ∨ c.toNat = 13 := by
      have : 9 ≤ c.toNat := h
      have : c.toNat ≤ 13 := h'
      omega
    rcases hc with h | h | h | h | h <;> simp [← Char.toNat_inj, h]
  rcases h with (((((((((h | h) | h) | h) | h) | h) | h) | h) | h) | h) | h
  · subst h; decide
  · rcases hcontrol h with rfl | rfl | rfl | rfl | rfl <;> decide
  · exact absurd h hc
  · subst h; decide
  · subst h; decide
  · exact .inr (by simp [isScriptSpace, h])
  all_goals subst h; decide

/-- A text without the white space at its start. -/
def trimStart (cs : List Char) : List Char := cs.dropWhile isWhiteSpace

/-- A text without the white space at its end. -/
def trimEnd (cs : List Char) : List Char := (trimStart cs.reverse).reverse

/-- A text without the white space at its two ends. -/
def trim (cs : List Char) : List Char := trimEnd (trimStart cs)

end EditionCheck.Text
