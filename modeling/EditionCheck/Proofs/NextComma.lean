import EditionCheck.Proofs.Lexemes
import EditionCheck.Proofs.Passage

/-!
# Where a comma is the next token

The comma behind the last item of a list is looked for in the text; this file compares that with the
token that comes next.

* `eq_comma_of_lexemeAt`, `lexemeAt_comma` — the token `,` is read from this character only;
* `tokenIn_of_whiteSpace` — a comma behind white space is the next token;
* `exists_gap_of_comma` — if the next token is a comma, the text has one behind what is skipped.
-/

set_option autoImplicit false

namespace EditionCheck.Script

open EditionCheck.Text

/-! ## Reading a comma -/

theorem spelling_of_comma : ∀ entry ∈ Punctuator.table, entry.2 = .comma → entry.1 = [','] := by
  decide

/-- The punctuator `,` is read from this character only. -/
theorem eq_comma_of_punctuatorAt {cs : List Char} {n : Nat}
    (h : punctuatorAt cs = some (n, .comma)) : n = 1 ∧ ∃ r, cs = ',' :: r := by
  obtain ⟨spelling, hmem, hprefix, rfl⟩ := spelling_of_punctuatorAt h
  cases spelling_of_comma _ hmem rfl
  obtain ⟨r, hr⟩ := List.isPrefixOf_iff_prefix.1 hprefix
  exact ⟨rfl, r, hr.symm⟩

theorem eq_comma_of_lexemeAt {cs : List Char} {n : Nat} (h : lexemeAt cs = (.punctuator .comma, n)) :
    n = 1 ∧ ∃ r, cs = ',' :: r := by
  exact eq_comma_of_punctuatorAt (punctuatorAt_of_lexemeAt h)

theorem lexemeAt_comma (r : List Char) : lexemeAt (',' :: r) = (.punctuator .comma, 1) := by
  have hname : isNameStart ',' = false := by decide +kernel
  rw [lexemeAt]
  simp [hname, punctuatorAt, punctuatorIn, Punctuator.table, List.isPrefixOf, Char.isDigit]

theorem lexemeAt_nextLine (r : List Char) : lexemeAt ('\u0085' :: r) = (.invalid, 1) := by
  have hname : isNameStart '\u0085' = false := by decide +kernel
  rw [lexemeAt]
  simp [hname, punctuatorAt, punctuatorIn, Punctuator.table, List.isPrefixOf, Char.isDigit]

/-! ## White space in front of a comma -/

theorem skipTriviaFrom_blank {c : Char} (line : Bool) (o : Nat) (r : List Char)
    (h : isLineTerminator c = true ∨ isScriptSpace c = true) :
    skipTriviaFrom .blanks line o (c :: r)
      = skipTriviaFrom .blanks (line || isLineTerminator c) (o + c.utf8Size) r := by
  have hne (d : Char) (hd : (isLineTerminator d || isScriptSpace d) = false) : c ≠ d := by
    rintro rfl
    rw [Bool.or_eq_false_iff] at hd
    rcases h with h | h
    · exact Bool.false_ne_true (hd.1.symm.trans h)
    · exact Bool.false_ne_true (hd.2.symm.trans h)
  rw [skipTriviaFrom]
  · split
    · next hline => simp [hline]
    · next hline => simp [hline, h.resolve_left hline]
  · exact fun _ hc _ => hne '/' (by decide) hc
  · exact fun _ hc _ => hne '/' (by decide) hc
  · exact fun _ hc _ => hne '<' (by decide) hc
  · exact fun _ _ hc _ => hne '-' (by decide) hc

theorem skipTriviaFrom_comma (line : Bool) (o : Nat) (r : List Char) :
    skipTriviaFrom .blanks line o (',' :: r) = some (line, ⟨o, ',' :: r⟩) := by
  rw [skipTriviaFrom]
  · rfl
  all_goals simp

theorem skipTriviaFrom_nextLine (line : Bool) (o : Nat) (r : List Char) :
    skipTriviaFrom .blanks line o ('\u0085' :: r) = some (line, ⟨o, '\u0085' :: r⟩) := by
  rw [skipTriviaFrom]
  · rfl
  all_goals simp

/-- In front of a comma, white space is skipped up to the comma or up to U+0085. -/
theorem skipTriviaFrom_whiteSpace {ws : List Char} (h : ∀ c ∈ ws, isWhiteSpace c = true)
    (line : Bool) (o : Nat) (r : List Char) :
    ∃ line', skipTriviaFrom .blanks line o (ws ++ ',' :: r)
        = some (line', ⟨o + byteLength ws, ',' :: r⟩)
      ∨ ∃ o' r', skipTriviaFrom .blanks line o (ws ++ ',' :: r)
          = some (line', ⟨o', '\u0085' :: r'⟩) := by
  induction ws generalizing line o with
  | nil => exact ⟨line, .inl (skipTriviaFrom_comma line o r)⟩
  | cons c ws ih =>
    obtain ⟨hc, hws⟩ := List.forall_mem_cons.1 h
    by_cases hnext : c = '\u0085'
    · subst hnext
      exact ⟨line, .inr ⟨o, ws ++ ',' :: r, skipTriviaFrom_nextLine line o _⟩⟩
    · rw [List.cons_append, skipTriviaFrom_blank line o _ (isBlank_of_isWhiteSpace hc hnext),
        byteLength_cons, ← Nat.add_assoc]
      exact ih hws _ _

section

variable {c : Cursor} {ws r : List Char} {mode : TriviaMode} {line : Bool}

/-- A comma behind white space is the next token, unless there is U+0085 in front of it. -/
theorem tokenIn_of_whiteSpace (hws : ∀ d ∈ ws, isWhiteSpace d = true) (hrest : c.rest = ws ++ ',' :: r)
    (hvalid : (tokenIn .blanks line c).lexeme ≠ .invalid) :
    (tokenIn .blanks line c).isPunctuator .comma
      ∧ (tokenIn .blanks line c).span.start = c.offset + byteLength ws := by
  unfold tokenIn at hvalid ⊢
  rw [hrest] at hvalid ⊢
  obtain ⟨line', hskip | ⟨o, r', hskip⟩⟩ := skipTriviaFrom_whiteSpace hws line c.offset r
  · simp only [hskip, Token.ofRead, lexemeAt_comma]
    exact ⟨rfl, trivial⟩
  · simp only [hskip, Token.ofRead, lexemeAt_nextLine] at hvalid
    exact absurd rfl hvalid

/-- Where the next token is a comma, the text has one behind what is skipped. -/
theorem exists_gap_of_comma (h : (tokenIn mode line c).isPunctuator .comma) :
    ∃ gap r, c.rest = gap ++ ',' :: r
      ∧ (tokenIn mode line c).span = ⟨c.offset + byteLength gap, c.offset + byteLength gap + 1⟩ := by
  have hlexeme := lexeme_of_isPunctuator h
  unfold tokenIn at hlexeme ⊢
  split at hlexeme
  · next line' d hskip =>
    obtain ⟨hcount, r, hr⟩ := eq_comma_of_lexemeAt (Prod.ext hlexeme rfl)
    obtain ⟨gap, hrest, hoffset⟩ := reaches_skipTriviaFrom hskip
    refine ⟨gap, r, hr ▸ hrest, ?_⟩
    obtain ⟨o, rest⟩ := d
    have hrest : rest = ',' :: r := hr
    have hoffset : o = c.offset + byteLength gap := hoffset
    simp only [Token.ofRead, hcount]
    rw [hrest, ← hoffset]
    rfl
  · cases hlexeme

end

end EditionCheck.Script
