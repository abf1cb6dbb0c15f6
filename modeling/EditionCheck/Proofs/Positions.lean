import EditionCheck.Proofs.Lexemes

/-!
# Where tokens stand

A token knows the text from its start on and the text behind it. This file says that these are parts of
one text, at the offsets that the token names, and that each token stands behind the one before it.

* `Cursor.StandsIn` — a cursor stands in a text; there is one at each offset (`StandsIn.eq_ofOffset`);
* `Token.StandsIn` — a token is read at a cursor of the text, and its span covers what was read
  (`Token.StandsIn.slice`);
* `standsIn_tokenIn`, `Token.StandsIn.next` — the tokens of a text;
* `tokenAfter` — the token that follows an offset, as a function of the text;
* `Stretch` — a span covers a part of a text that is not empty, as the span of a token does
  (`Token.StandsIn.stretch`).
-/

set_option autoImplicit false

namespace EditionCheck.Script

open EditionCheck.Text

/-! ## Cursors -/

namespace Cursor

/-- A cursor can be moved to another one over the characters between them. -/
def Reaches (c d : Cursor) : Prop :=
  ∃ gap, c.rest = gap ++ d.rest ∧ d.offset = c.offset + byteLength gap

/-- A cursor stands in a text: it can be reached from the start. -/
def StandsIn (c : Cursor) (text : List Char) : Prop := (ofText text).Reaches c

/-- The cursor at an offset of a text. -/
def ofOffset (text : List Char) (offset : Nat) : Cursor := ⟨offset, dropBytes offset text⟩

variable {c d e : Cursor} {text rest : List Char}

theorem Reaches.refl (c : Cursor) : c.Reaches c := ⟨[], rfl, rfl⟩

theorem Reaches.trans (h : c.Reaches d) (h' : d.Reaches e) : c.Reaches e := by
  obtain ⟨gap, hrest, hoffset⟩ := h
  obtain ⟨gap', hrest', hoffset'⟩ := h'
  refine ⟨gap ++ gap', ?_, ?_⟩
  · rw [hrest, hrest', List.append_assoc]
  · rw [hoffset', hoffset, byteLength_append, Nat.add_assoc]

theorem Reaches.offset_le (h : c.Reaches d) : c.offset ≤ d.offset := by
  obtain ⟨gap, -, hoffset⟩ := h
  omega

theorem reaches_move (offset : Nat) (gap rest : List Char) :
    Reaches ⟨offset, gap ++ rest⟩ ⟨offset + byteLength gap, rest⟩ := ⟨gap, rfl, rfl⟩

/-- Skipping characters moves a cursor over them. -/
theorem skip_eq (n : Nat) (c : Cursor) :
    c.skip n = ⟨c.offset + byteLength (c.rest.take n), c.rest.drop n⟩ := by
  induction n generalizing c with
  | zero => rfl
  | succ n ih =>
    obtain ⟨offset, rest⟩ := c
    cases rest with
    | nil => rfl
    | cons x rest =>
      rw [skip, next?]
      simp [ih, Nat.add_assoc]

theorem reaches_skip (n : Nat) (c : Cursor) : c.Reaches (c.skip n) := by
  rw [skip_eq]
  exact ⟨c.rest.take n, (List.take_append_drop n c.rest).symm, rfl⟩

theorem standsIn_ofText (text : List Char) : (ofText text).StandsIn text := .refl _

theorem StandsIn.reach (h : c.StandsIn text) (h' : c.Reaches d) : d.StandsIn text := Reaches.trans h h'

theorem standsIn_ofOffset (front back : List Char) :
    (ofOffset (front ++ back) (byteLength front)).StandsIn (front ++ back) := by
  refine ⟨front, ?_, (Nat.zero_add _).symm⟩
  show front ++ back = front ++ dropBytes (byteLength front) (front ++ back)
  rw [dropBytes_append]

/-- There is one cursor at an offset. -/
theorem StandsIn.eq_ofOffset (h : c.StandsIn text) : c = ofOffset text c.offset := by
  obtain ⟨front, htext, hoffset⟩ := h
  have htext : text = front ++ c.rest := htext
  have hoffset : c.offset = byteLength front := by rw [hoffset, ofText, Nat.zero_add]
  have hdrop : dropBytes c.offset text = c.rest := by rw [hoffset, htext, dropBytes_append]
  rw [ofOffset, hdrop]

/-- The characters that a cursor is moved over are the text between the two offsets. -/
theorem StandsIn.slice_skip (h : c.StandsIn text) (n : Nat) :
    Span.slice text ⟨c.offset, (c.skip n).offset⟩ = c.rest.take n := by
  obtain ⟨front, htext, hoffset⟩ := h
  have htext : text = front ++ c.rest := htext
  have hoffset : c.offset = byteLength front := by rw [hoffset, ofText, Nat.zero_add]
  rw [skip_eq, hoffset, htext]
  conv => lhs; arg 1; rw [← List.take_append_drop n c.rest]
  exact Span.slice_append _ _ _

end Cursor

/-! ## Parts of a text -/

/-- A span reaches from one place of a text to a later one. -/
structure Stretch (text : List Char) (span : Span) : Prop where
  start : (Cursor.ofOffset text span.start).StandsIn text
  stop : (Cursor.ofOffset text span.stop).StandsIn text
  lt : span.start < span.stop

/-- From the start of one part to the end of another one that does not begin earlier. -/
theorem Stretch.through {text : List Char} {span span' : Span} (h : Stretch text span)
    (h' : Stretch text span') (hle : span.start ≤ span'.start) : Stretch text (span.through span') :=
  ⟨h.start, h'.stop, Nat.lt_of_le_of_lt hle h'.lt⟩

theorem Cursor.StandsIn.exists_front {text : List Char} {offset : Nat}
    (h : (Cursor.ofOffset text offset).StandsIn text) :
    ∃ front, front <+: text ∧ offset = byteLength front := by
  obtain ⟨front, htext, hoffset⟩ := h
  refine ⟨front, ⟨_, htext.symm⟩, ?_⟩
  rw [show offset = (Cursor.ofText text).offset + byteLength front from hoffset, Cursor.ofText,
    Nat.zero_add]

/-- Such a span cuts a part out of the text, between two characters each. -/
theorem Stretch.exists_part {text : List Char} {span : Span} (h : Stretch text span) :
    ∃ front part back, text = front ++ (part ++ back) ∧ part ≠ []
      ∧ span = ⟨byteLength front, byteLength front + byteLength part⟩ := by
  obtain ⟨front, hfront, hstart⟩ := h.start.exists_front
  obtain ⟨whole, hwhole, hstop⟩ := h.stop.exists_front
  have hlt := h.lt
  rw [hstart, hstop] at hlt
  obtain ⟨part, rfl⟩ : front <+: whole := by
    rcases List.prefix_or_prefix_of_prefix hfront hwhole with hle | ⟨more, rfl⟩
    · exact hle
    · rw [byteLength_append] at hlt
      omega
  obtain ⟨back, htext⟩ := hwhole
  obtain ⟨start, stop⟩ := span
  rw [byteLength_append] at hstop hlt
  refine ⟨front, part, back, by rw [← htext, List.append_assoc], ?_, ?_⟩
  · rintro rfl
    exact Nat.lt_irrefl _ hlt
  · cases hstart
    cases hstop
    rfl

/-! ## Blanks and comments -/

/-- What is skipped in front of a token is a part of the text. -/
theorem reaches_skipTriviaFrom {mode : TriviaMode} {line line' : Bool} {o : Nat} {cs : List Char}
    {c : Cursor} (h : skipTriviaFrom mode line o cs = some (line', c)) : Cursor.Reaches ⟨o, cs⟩ c := by
  have pass {o o' : Nat} (gap : List Char) {rest : List Char} (ho : o' = o + byteLength gap)
      (ih : Cursor.Reaches ⟨o', rest⟩ c) : Cursor.Reaches ⟨o, gap ++ rest⟩ c := by
    subst ho
    exact (Cursor.reaches_move o gap rest).trans ih
  fun_induction skipTriviaFrom mode line o cs with
  | case1 line o r ih => exact pass ['/', '/'] rfl (ih h)
  | case2 line o r ih => exact pass ['/', '*'] rfl (ih h)
  | case3 line o r ih => exact pass ['<', '!', '-', '-'] rfl (ih h)
  | case4 o r ih => exact pass ['-', '-', '>'] rfl (ih h)
  | case5 line o c r _ _ _ _ _ ih => exact pass [c] rfl (ih h)
  | case6 line o c r _ _ _ _ _ _ ih => exact pass [c] rfl (ih h)
  | case8 line o c r _ ih => exact pass [c] rfl (ih h)
  | case9 line o c r _ ih => exact pass [c] rfl (ih h)
  | case10 line o r ih => exact pass ['*', '/'] rfl (ih h)
  | case11 line o c r _ ih => exact pass [c] rfl (ih h)
  | case7 =>
    cases h
    exact .refl _
  | case12 => cases h
  | case13 =>
    cases h
    exact .refl _

/-! ## Tokens -/

namespace Token

/-- The ways in which a token is read, or not read behind a comment without an end. -/
inductive ReadFrom (cs : List Char) : Lexeme × Nat → Prop
  | lexeme : ReadFrom cs (lexemeAt cs)
  | regExp : ReadFrom cs (behind 1 (regExpAt (cs.drop 1)))
  | templateTail : ReadFrom cs (behind 1 (templatePartAt (cs.drop 1)))
  | unended : ReadFrom cs (.invalid, 0)

/-- A token stands in a text: it was read at a cursor of the text. -/
def StandsIn (t : Token) (text : List Char) : Prop :=
  ∃ line c read, c.StandsIn text ∧ ReadFrom c.rest read ∧ t = ofRead line c read

variable {t : Token} {text : List Char}

theorem StandsIn.origin (h : t.StandsIn text) : t.origin.StandsIn text := by
  obtain ⟨line, c, read, hc, -, rfl⟩ := h
  exact hc

theorem StandsIn.reaches (h : t.StandsIn text) : t.origin.Reaches t.after := by
  obtain ⟨line, c, read, -, -, rfl⟩ := h
  exact Cursor.reaches_skip _ _

theorem StandsIn.after (h : t.StandsIn text) : t.after.StandsIn text := h.origin.reach h.reaches

theorem StandsIn.span_eq (h : t.StandsIn text) : t.span = ⟨t.origin.offset, t.after.offset⟩ := by
  obtain ⟨line, c, read, -, -, rfl⟩ := h
  rfl

/-- The span of a token covers the characters that were read. -/
theorem StandsIn.slice (h : t.StandsIn text) :
    ∃ read, ReadFrom t.origin.rest read ∧ t.lexeme = read.1
      ∧ t.span.slice text = t.origin.rest.take read.2 := by
  obtain ⟨line, c, read, hc, hread, rfl⟩ := h
  exact ⟨read, hread, rfl, hc.slice_skip read.2⟩

theorem StandsIn.start_le_stop (h : t.StandsIn text) : t.span.start ≤ t.span.stop := by
  rw [h.span_eq]
  exact h.reaches.offset_le

theorem StandsIn.asRegExp (h : t.StandsIn text) : t.asRegExp.StandsIn text :=
  ⟨_, _, _, h.origin, .regExp, rfl⟩

theorem StandsIn.asTemplateTail (h : t.StandsIn text) : t.asTemplateTail.StandsIn text :=
  ⟨_, _, _, h.origin, .templateTail, rfl⟩

/-- What is read as a token with characters is not read where the text ends. -/
theorem ReadFrom.pos {cs : List Char} {read : Lexeme × Nat} (h : ReadFrom cs read)
    (hsolid : read.1.isSolid) : cs ≠ [] ∧ 0 < read.2 := by
  cases h with
  | lexeme => exact pos_of_lexemeAt hsolid
  | regExp =>
    refine ⟨?_, Nat.succ_pos _⟩
    rintro rfl
    cases hsolid
  | templateTail =>
    refine ⟨?_, Nat.succ_pos _⟩
    rintro rfl
    cases hsolid
  | unended => cases hsolid

theorem StandsIn.start (h : t.StandsIn text) : (Cursor.ofOffset text t.span.start).StandsIn text := by
  rw [h.span_eq, ← h.origin.eq_ofOffset]
  exact h.origin

theorem StandsIn.stop (h : t.StandsIn text) : (Cursor.ofOffset text t.span.stop).StandsIn text := by
  rw [h.span_eq, ← h.after.eq_ofOffset]
  exact h.after

/-- The span of a token with characters covers a part of the text. -/
theorem StandsIn.stretch (h : t.StandsIn text) (hsolid : t.lexeme.isSolid) : Stretch text t.span := by
  refine ⟨h.start, h.stop, ?_⟩
  obtain ⟨line, c, read, -, hread, rfl⟩ := h
  obtain ⟨hrest, hpos⟩ := hread.pos hsolid
  have htaken : c.rest.take read.2 ≠ [] := by
    rw [Ne, List.take_eq_nil_iff]
    rintro (hzero | hnil)
    · omega
    · exact hrest hnil
  have hlength := byteLength_pos htaken
  show c.offset < (c.skip read.2).offset
  rw [Cursor.skip_eq]
  show c.offset < c.offset + byteLength (c.rest.take read.2)
  omega

/-- What can be read in one way only is read by `lexemeAt`. -/
theorem ReadFrom.eq_lexemeAt {cs : List Char} {read : Lexeme × Nat} (h : ReadFrom cs read)
    (hplain : read.1.isPlain) : read = lexemeAt cs := by
  cases h with
  | lexeme => rfl
  | regExp => exact absurd ((isPlain_regExpAt _).symm.trans hplain) Bool.false_ne_true
  | templateTail => exact absurd ((isPlain_templatePartAt _).symm.trans hplain) Bool.false_ne_true
  | unended => cases hplain

/-- A punctuator covers one of its spellings. -/
theorem StandsIn.spelling {p : Punctuator} (h : t.StandsIn text) (hp : t.lexeme = .punctuator p) :
    ∃ spelling, (spelling, p) ∈ Punctuator.table ∧ spelling.isPrefixOf t.origin.rest
      ∧ t.span.slice text = spelling := by
  obtain ⟨read, hread, hlexeme, hslice⟩ := h.slice
  rw [hp] at hlexeme
  have heq := hread.eq_lexemeAt (hlexeme ▸ rfl)
  have hread : lexemeAt t.origin.rest = (.punctuator p, read.2) :=
    heq.symm.trans (Prod.ext hlexeme.symm rfl)
  obtain ⟨spelling, hmem, hprefix, hcount⟩ :=
    spelling_of_punctuatorAt (punctuatorAt_of_lexemeAt hread)
  refine ⟨spelling, hmem, hprefix, ?_⟩
  rw [hslice, hcount]
  exact (List.prefix_iff_eq_take.1 (List.isPrefixOf_iff_prefix.1 hprefix)).symm

/-- A name without escapes is written without backslashes. -/
theorem StandsIn.no_backslash {x : String} (h : t.StandsIn text) (hname : t.lexeme = .name x false) :
    '\\' ∉ t.span.slice text := by
  obtain ⟨read, hread, hlexeme, hslice⟩ := h.slice
  rw [hname] at hlexeme
  have heq := hread.eq_lexemeAt (hlexeme ▸ rfl)
  have hread : lexemeAt t.origin.rest = (.name x false, read.2) :=
    heq.symm.trans (Prod.ext hlexeme.symm rfl)
  obtain ⟨m, hm, hescaped, hcount⟩ := nameFrom_of_lexemeAt hread
  have hnone := no_backslash_of_nameFrom hm hescaped
  rw [hcount] at hnone
  rw [hslice]
  exact hnone

end Token

section

variable {c : Cursor} {text : List Char} (mode : TriviaMode) (line : Bool)

theorem standsIn_tokenIn (h : c.StandsIn text) : (tokenIn mode line c).StandsIn text := by
  unfold tokenIn
  split
  · next line' c' hskip => exact ⟨_, _, _, h.reach (reaches_skipTriviaFrom hskip), .lexeme, rfl⟩
  · exact ⟨_, _, _, h, .unended, rfl⟩

theorem reaches_origin_tokenIn (c : Cursor) : c.Reaches (tokenIn mode line c).origin := by
  unfold tokenIn
  split
  · next line' c' hskip => exact reaches_skipTriviaFrom hskip
  · exact .refl c

end

theorem standsIn_firstToken (text : List Char) : (firstToken text).StandsIn text :=
  standsIn_tokenIn _ _ (Cursor.standsIn_ofText text)

theorem Token.StandsIn.next {t : Token} {text : List Char} (h : t.StandsIn text) :
    t.next.StandsIn text := standsIn_tokenIn _ _ h.after

/-- The next token stands behind the end of a token. -/
theorem Token.StandsIn.stop_le_next {t : Token} {text : List Char} (h : t.StandsIn text) :
    t.span.stop ≤ t.next.span.start := by
  rw [h.span_eq, h.next.span_eq]
  exact (reaches_origin_tokenIn _ _ t.after).offset_le

theorem Token.StandsIn.start_le_next {t : Token} {text : List Char} (h : t.StandsIn text) :
    t.span.start ≤ t.next.span.start := Nat.le_trans h.start_le_stop h.stop_le_next

/-- The token that follows an offset of a text. -/
def tokenAfter (text : List Char) (offset : Nat) : Token :=
  tokenIn .blanks false (Cursor.ofOffset text offset)

theorem Token.StandsIn.next_eq {t : Token} {text : List Char} (h : t.StandsIn text) :
    t.next = tokenAfter text t.span.stop := by
  rw [Token.next, tokenAfter, h.span_eq, ← h.after.eq_ofOffset]

end EditionCheck.Script
