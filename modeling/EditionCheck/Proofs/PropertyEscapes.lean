import EditionCheck.Proofs.Made.Statement
import EditionCheck.Proofs.NextComma
import EditionCheck.Proofs.PatternParts

/-!
# Property escapes

Which regular expressions the walk for newer syntax reports for a property escape, `\p{...}` or `\P{...}`.

* `exists_literal_of_regExp` — a token that is a regular expression is spelled with a slash on both sides
  of its body, and its flags have no slash;
* `requires_propertyEscape_iff` — a regular expression without named groups and lookbehinds requires the
  feature just when its body has such an escape outside of character classes, if these do not nest;
* `property_escapes_raised` — so it is raised for it, whatever else the flags are.
-/

set_option autoImplicit false

namespace EditionCheck.Script

open EditionCheck.Text

/-! ## Regular expressions among the tokens -/

/-- A text is spelled as a regular expression with a body and flags. -/
def SpellsRegExp (raw body flags : List Char) : Prop :=
  raw = '/' :: (body ++ '/' :: flags) ∧ '/' ∉ flags

instance (raw body flags : List Char) : Decidable (SpellsRegExp raw body flags) :=
  inferInstanceAs (Decidable (_ ∧ _))

/-- The body of a regular expression ends with a slash. -/
theorem exists_of_regExpBody {inClass : Bool} {cs : List Char} {n : Nat}
    (h : regExpBody inClass cs = some n) :
    ∃ body rest, cs = body ++ '/' :: rest ∧ n = body.length + 1 := by
  fun_induction regExpBody inClass cs generalizing n with
  | case4 inClass c r hline ih =>
    obtain ⟨m, hm, rfl⟩ := Option.map_eq_some_iff.1 h
    obtain ⟨body, rest, rfl, rfl⟩ := ih hm
    exact ⟨'\\' :: c :: body, rest, rfl, rfl⟩
  | case6 inClass c r _ _ _ hends =>
    cases h
    have hslash : c = '/' := by
      have hboth := Bool.and_eq_true_iff.1 hends
      exact beq_iff_eq.1 hboth.1
    exact ⟨[], r, by rw [hslash]; rfl, rfl⟩
  | case7 inClass c r _ _ _ _ ih =>
    obtain ⟨m, hm, rfl⟩ := Option.map_eq_some_iff.1 h
    obtain ⟨body, rest, rfl, rfl⟩ := ih hm
    exact ⟨c :: body, rest, rfl, rfl⟩
  | _ => cases h

/-- Flags are letters, so there is no slash among them. -/
theorem slash_not_mem_of_validFlags {flags : List Char} (h : validFlags flags) : '/' ∉ flags := by
  intro hmem
  simp only [validFlags, Bool.and_eq_true] at h
  have hknown := List.all_eq_true.1 h.1.1 _ hmem
  revert hknown
  decide

/-- What is read as a regular expression behind a slash is its body, a slash, and its flags. -/
theorem spellsRegExp_of_regExpAt {cs : List Char} {n : Nat} (h : regExpAt cs = (.regExp, n)) :
    ∃ body flags, SpellsRegExp ('/' :: cs.take n) body flags := by
  unfold regExpAt at h
  split at h
  · cases h
  · next m hm =>
    obtain ⟨body, rest, rfl, rfl⟩ := exists_of_regExpBody hm
    have hbehind : (body ++ '/' :: rest).drop (body.length + 1) = rest := by
      rw [List.drop_append, List.drop_of_length_le (by omega)]
      simp
    simp only [hbehind] at h
    split at h
    · next hflags =>
      cases h
      obtain ⟨hvalid, -⟩ := Bool.and_eq_true_iff.1 hflags
      refine ⟨body, rest.takeWhile isNamePart, ?_, slash_not_mem_of_validFlags hvalid⟩
      have htake : rest.take (rest.takeWhile isNamePart).length = rest.takeWhile isNamePart :=
        (List.prefix_iff_eq_take.1 (List.takeWhile_prefix isNamePart)).symm
      rw [Nat.add_assoc, List.take_length_add_append, Nat.add_comm 1, List.take_succ_cons, htake]
    · cases h

/-- The leaf that a regular expression is kept as. -/
theorem Kind.eq_regExpLiteral_of_spells {kind : Kind} (h : kind.spells .regExp) :
    kind = .regExpLiteral := by
  cases kind <;> simp [spells] at h ⊢

theorem lexemeAt_ne_regExp (cs : List Char) : (lexemeAt cs).1 ≠ .regExp := by
  intro h
  have hread := lexemeOf_lexemeAt cs
  generalize lexemeAt cs = read at h hread
  cases hread with
  | number hnumeric =>
    obtain ⟨l, count⟩ := read
    cases h
    cases hnumeric
  | _ => cases h

theorem tokenIn_ne_regExp (mode : TriviaMode) (line : Bool) (c : Cursor) :
    (tokenIn mode line c).lexeme ≠ .regExp := by
  unfold tokenIn
  split
  · exact lexemeAt_ne_regExp _
  · exact Lexeme.noConfusion

theorem templateTail_ne_regExp (t : Token) : t.asTemplateTail.lexeme ≠ .regExp := by
  show (templatePartAt _).1 ≠ .regExp
  unfold templatePartAt
  split <;> exact Lexeme.noConfusion

section

variable {text : List Char} {t : Token} {ts : List Token}

theorem spelling_of_slash : ∀ entry ∈ Punctuator.table,
    entry.2 = .slash ∨ entry.2 = .slashAssign → entry.1.head? = some '/' := by
  decide

/-- A slash, alone or in front of an equals sign, is read from this character only. -/
theorem Token.StandsIn.slash (h : t.StandsIn text)
    (hslash : t.isPunctuator .slash ∨ t.isPunctuator .slashAssign) :
    ∃ r, t.origin.rest = '/' :: r := by
  obtain ⟨p, hp, hlexeme⟩ : ∃ p : Punctuator, (p = .slash ∨ p = .slashAssign)
      ∧ t.lexeme = .punctuator p := by
    rcases hslash with h | h
    · exact ⟨_, .inl rfl, lexeme_of_isPunctuator h⟩
    · exact ⟨_, .inr rfl, lexeme_of_isPunctuator h⟩
  obtain ⟨spelling, hmem, hprefix, -⟩ := h.spelling hlexeme
  have hhead := spelling_of_slash _ hmem hp
  obtain ⟨back, hback⟩ := List.isPrefixOf_iff_prefix.1 hprefix
  obtain ⟨front, rfl⟩ := List.head?_eq_some_iff.1 hhead
  exact ⟨front ++ back, hback.symm⟩

/-- A token that is read again as a regular expression is spelled as one. -/
theorem spellsRegExp_of_asRegExp (h : t.StandsIn text)
    (hslash : t.isPunctuator .slash ∨ t.isPunctuator .slashAssign)
    (hlexeme : t.asRegExp.lexeme = .regExp) :
    ∃ body flags, SpellsRegExp (t.asRegExp.span.slice text) body flags := by
  obtain ⟨r, hr⟩ := h.slash hslash
  have hslice : t.asRegExp.span.slice text
      = t.origin.rest.take (behind 1 (regExpAt (t.origin.rest.drop 1))).2 :=
    h.origin.slice_skip _
  have hread : (regExpAt (t.origin.rest.drop 1)).1 = .regExp := hlexeme
  rw [hr, List.drop_succ_cons, List.drop_zero] at hslice hread
  rw [hslice]
  exact spellsRegExp_of_regExpAt (Prod.ext hread rfl)

/-- **Every regular expression among the tokens is spelled as one.** -/
theorem exists_literal_of_regExp (h : TokensFrom t ts) (ht : t.StandsIn text)
    (hplain : t.lexeme ≠ .regExp) :
    ∀ u ∈ ts, u.lexeme = .regExp → ∃ body flags, SpellsRegExp (u.span.slice text) body flags := by
  induction h with
  | endOfText => exact fun _ hu => absurd hu List.not_mem_nil
  | cons hread _ ih =>
    refine List.forall_mem_cons.2 ⟨fun hlexeme => ?_, ih (ht.readAs hread).next (tokenIn_ne_regExp _ _ _)⟩
    cases hread with
    | plain => exact absurd hlexeme hplain
    | regExp hslash => exact spellsRegExp_of_asRegExp ht hslash hlexeme
    | templateTail => exact absurd hlexeme (templateTail_ne_regExp _)

end

end EditionCheck.Script

namespace EditionCheck.Scan

open EditionCheck.Text EditionCheck.Script Node

variable {source body flags : List Char} {n : Node} {target : Edition}

/-! ## Property escapes in a body -/

/-- A body has a property escape outside of its character classes, which may nest if the flag says so. -/
def WritesProperty (nests : Bool) (body : List Char) : Prop :=
  ∃ front p back, body = front ++ '\\' :: p :: '{' :: back ∧ (p = 'p' ∨ p = 'P')
    ∧ StandsOutside nests front

/-- A body has a property escape, in a class or not: its backslash is not escaped itself. -/
def MentionsProperty (body : List Char) : Prop :=
  ∃ front p back, body = front ++ '\\' :: p :: '{' :: back ∧ (p = 'p' ∨ p = 'P')
    ∧ trailingBackslashes front % 2 = 0

/-- A body has a named group or a lookbehind, outside of its character classes. -/
def WritesAngleGroup (nests : Bool) (body : List Char) : Prop :=
  ∃ front back, body = front ++ '(' :: '?' :: '<' :: back ∧ StandsOutside nests front

/-- Whether the flags of a literal let classes stand in classes. -/
def nestClasses (flags : List Char) : Bool := flags.contains 'v'

/-- In a literal, a character class stands in another one. -/
def LiteralNests (body flags : List Char) : Prop := nestClasses flags ∧ NestsClasses body

section

variable {nests : Bool}

theorem not_writesAngleGroup (h : '(' ∉ body) : ¬ WritesAngleGroup nests body := by
  rintro ⟨front, back, rfl, -⟩
  exact h (List.mem_append_right _ List.mem_cons_self)

theorem WritesProperty.mentions (h : WritesProperty nests body) : MentionsProperty body := by
  obtain ⟨front, p, back, hbody, hp, hfront⟩ := h
  exact ⟨front, p, back, hbody, hp, hfront.even⟩

/-- Without classes, the parity of the backslashes decides. -/
theorem writesProperty_iff_mentions (hnone : '[' ∉ body) :
    WritesProperty nests body ↔ MentionsProperty body := by
  refine ⟨WritesProperty.mentions, ?_⟩
  rintro ⟨front, p, back, rfl, hp, heven⟩
  have hfront : '[' ∉ front := fun h => hnone (List.mem_append_left _ h)
  exact ⟨front, p, back, rfl, hp, standsOutside_of_not_mem hfront heven⟩

/-- What stands outside of all classes does so too if classes are taken not to nest. -/
theorem WritesProperty.flat (h : WritesProperty nests body) : WritesProperty false body := by
  cases nests with
  | false => exact h
  | true =>
    obtain ⟨front, p, back, hbody, hp, hfront⟩ := h
    exact ⟨front, p, back, hbody, hp, hfront.of_nested⟩

end

/-- In a literal without nested classes, it does not matter whether they could nest. -/
theorem standsOutside_iff_of_literal {front rest : List Char}
    (hflat : ¬ LiteralNests (front ++ rest) flags) :
    StandsOutside (nestClasses flags) front ↔ StandsOutside false front := by
  cases hnests : nestClasses flags with
  | false => exact Iff.rfl
  | true => exact standsOutside_iff_of_flat fun h => hflat ⟨hnests, h⟩

theorem writesProperty_iff_flat (hflat : ¬ LiteralNests body flags) :
    WritesProperty (nestClasses flags) body ↔ WritesProperty false body := by
  refine ⟨.flat, ?_⟩
  rintro ⟨front, p, back, rfl, hp, hfront⟩
  exact ⟨front, p, back, rfl, hp, (standsOutside_iff_of_literal hflat).2 hfront⟩

theorem writesAngleGroup_of_flat (hflat : ¬ LiteralNests body flags) (h : WritesAngleGroup false body) :
    WritesAngleGroup (nestClasses flags) body := by
  obtain ⟨front, back, rfl, hfront⟩ := h
  exact ⟨front, back, rfl, (standsOutside_iff_of_literal hflat).2 hfront⟩

/-- A body with a property escape outside of its classes is read as one with newer syntax. -/
theorem isSome_bodyFeature_of_writes (h : WritesProperty false body) : (bodyFeature false body).isSome := by
  obtain ⟨front, p, back, rfl, hp, hfront⟩ := h
  have hopening : opening ('\\' :: p :: '{' :: back) = some .regExpPropertyEscape := by
    rcases hp with rfl | rfl <;> rfl
  have hout : LeadsOut false front := wholeParts_iff.2 hfront
  exact isSome_bodyFeature hout hopening

/-- A body without named groups and lookbehinds is read as one with a property escape just when it has
one outside of its classes, if these do not nest. -/
theorem bodyFeature_eq_propertyEscape_iff (hnone : ¬ WritesAngleGroup false body) :
    bodyFeature false body = some .regExpPropertyEscape ↔ WritesProperty false body := by
  constructor
  · intro h
    obtain ⟨front, rest, rfl, hfront, hrest⟩ := opening_of_bodyFeature h
    rcases opening_cases hrest with ⟨-, p, back, rfl, hp⟩ | ⟨hne, -⟩
    · exact ⟨front, p, back, rfl, hp, wholeParts_iff.1 hfront⟩
    · exact absurd rfl hne
  · intro hwrites
    -- something is found, and without a group it can only be a property escape
    obtain ⟨f, hf⟩ := Option.isSome_iff_exists.1 (isSome_bodyFeature_of_writes hwrites)
    obtain ⟨front', rest, hbody, hfront', hrest⟩ := opening_of_bodyFeature hf
    rcases opening_cases hrest with ⟨rfl, -⟩ | ⟨-, back', rfl⟩
    · exact hf
    · exact absurd ⟨front', back', hbody, wholeParts_iff.1 hfront'⟩ hnone

/-! ## What a regular expression requires -/

theorem regExpFeatures_literal (h : '/' ∉ flags) :
    regExpFeatures ('/' :: (body ++ '/' :: flags))
      = (bodyFeature false body).toList ++ flags.filterMap flagFeature := by
  have hsplit : splitAtLastSlash (('/' :: body) ++ '/' :: flags) = ('/' :: body, flags) :=
    splitAtLastSlash_literal h
  rw [List.cons_append] at hsplit
  rw [regExpFeatures, hsplit]
  rfl

theorem propertyEscape_not_mem_flags :
    Feature.regExpPropertyEscape ∉ flags.filterMap flagFeature := by
  intro h
  obtain ⟨c, -, hc⟩ := List.mem_filterMap.1 h
  unfold flagFeature at hc
  split at hc <;> cases hc

theorem ownRequirements_regExp (hkind : n.kind = .regExpLiteral)
    (hspells : SpellsRegExp (n.span.slice source) body flags) :
    ownRequirements source n
      = requireAt n.span ((bodyFeature false body).toList ++ flags.filterMap flagFeature) := by
  obtain ⟨hraw, hflags⟩ := hspells
  simp only [ownRequirements, hkind, hraw, regExpFeatures_literal hflags]

/-- **Which regular expressions require the feature.** -/
theorem requires_propertyEscape_iff (hkind : n.kind = .regExpLiteral)
    (hspells : SpellsRegExp (n.span.slice source) body flags) (hnone : ¬ WritesAngleGroup false body) :
    requires source .regExpPropertyEscape n ↔ WritesProperty false body := by
  rw [← bodyFeature_eq_propertyEscape_iff hnone, requires_iff, ownRequirements_regExp hkind hspells]
  constructor
  · rintro ⟨r, hr, hfeature⟩
    obtain ⟨hmem, -⟩ := mem_requireAt.1 hr
    rw [hfeature] at hmem
    rcases List.mem_append.1 hmem with hmem | hmem
    · exact Option.mem_toList.1 hmem
    · exact absurd hmem propertyEscape_not_mem_flags
  · intro h
    have hmem : Feature.regExpPropertyEscape ∈ (bodyFeature false body).toList := Option.mem_toList.2 h
    exact ⟨⟨.regExpPropertyEscape, n.span⟩, mem_requireAt.2 ⟨List.mem_append_left _ hmem, rfl⟩, rfl⟩

/-- Entering a regular expression raises its property escape before its flags. -/
theorem found_enter_iff (hkind : n.kind = .regExpLiteral)
    (hspells : SpellsRegExp (n.span.slice source) body flags) (hnone : ¬ WritesAngleGroup false body)
    (hold : target < .es2018) :
    (({ target } : Search).enter source n).found = some ⟨.regExpPropertyEscape, n.span⟩
      ↔ WritesProperty false body := by
  rw [Search.enter_eq, Search.found_foldl_consider, Option.none_or]
  constructor
  · intro hfound
    have hmem := List.mem_of_find?_eq_some hfound
    exact (requires_propertyEscape_iff hkind hspells hnone).1 (requires_iff.2 ⟨_, hmem, rfl⟩)
  · intro hwrites
    have hbody := (bodyFeature_eq_propertyEscape_iff hnone).2 hwrites
    rw [ownRequirements_regExp hkind hspells, hbody]
    exact List.find?_cons_of_pos (decide_eq_true hold)

/-- A regular expression with a property escape outside of its classes requires something of ES2018. -/
theorem exists_requirement_of_writes (hkind : n.kind = .regExpLiteral)
    (hspells : SpellsRegExp (n.span.slice source) body flags) (h : WritesProperty false body) :
    ∃ r ∈ ownRequirements source n, r.feature.edition = .es2018 := by
  obtain ⟨f, hf⟩ := Option.isSome_iff_exists.1 (isSome_bodyFeature_of_writes h)
  refine ⟨⟨f, n.span⟩, ?_, edition_of_bodyFeature hf⟩
  rw [ownRequirements_regExp hkind hspells, hf]
  exact mem_requireAt.2 ⟨List.mem_append_left _ (Option.mem_toList.2 rfl), rfl⟩

end EditionCheck.Scan

namespace EditionCheck

open EditionCheck.Text EditionCheck.Scan EditionCheck.Script Node

/-! ## What is raised -/

/-- **Property escapes are raised outside of character classes, whatever the flags.** A script is read
from a row of tokens, and every regular expression among them is a node of it, spelled as `/body/flags`.
If the body has no named group or lookbehind and no class in a class, which only the flag `v` makes of a
bracket there, entering the node raises the feature, for every target before ES2018, just when the body
has a property escape outside of its classes. Where it has one outside of all classes, nested ones among
them, the script is reported for every such target. In a body without classes that is an escape with an
even number of backslashes in front. -/
theorem property_escapes_raised (text : String) {program : Node}
    (hparse : parse text.toList = .ok program) :
    (∃ ts, TokensFrom (firstToken text.toList) ts
        ∧ ∀ t ∈ ts, t.lexeme = .regExp →
          ∃ leaf ∈ program.preorder, leaf.span = t.span ∧ leaf.kind = .regExpLiteral
            ∧ ∃ body flags, SpellsRegExp (leaf.span.slice text.toList) body flags)
      ∧ ∀ n ∈ program.preorder, n.kind = .regExpLiteral →
          ∀ body flags, SpellsRegExp (n.span.slice text.toList) body flags →
            (¬ WritesAngleGroup (nestClasses flags) body → ¬ LiteralNests body flags →
              ∀ target : Edition, target < .es2018 →
                ((({ target } : Search).enter text.toList n).found
                    = some ⟨.regExpPropertyEscape, n.span⟩
                  ↔ WritesProperty (nestClasses flags) body))
            ∧ (WritesProperty (nestClasses flags) body →
                (∀ target : Edition, target < .es2018 → (firstNewer text.toList target program).isSome)
                  ∧ ∀ v : Grammar, v.edition < .es2018 → validate text v ≠ .pass)
            ∧ ('[' ∉ body → (WritesProperty (nestClasses flags) body ↔ MentionsProperty body)) := by
  constructor
  · obtain ⟨ts, htokens, hkept⟩ := tokens_of_parse hparse
    refine ⟨ts, htokens, fun t ht hlexeme => ?_⟩
    have hkeep : t.isKept := by rw [Token.isKept, hlexeme]
    obtain ⟨leaf, hleaf, hspan, hspells⟩ := hkept t ht hkeep
    rw [hlexeme] at hspells
    have hkind := Kind.eq_regExpLiteral_of_spells hspells
    have hspelled := exists_literal_of_regExp htokens (standsIn_firstToken _)
      (tokenIn_ne_regExp _ _ _) t ht hlexeme
    rw [← hspan] at hspelled
    exact ⟨leaf, hleaf, hspan, hkind, hspelled⟩
  · intro n hn hkind body flags hspells
    refine ⟨fun hnone hflat target hold => ?_, fun hwrites => ?_, writesProperty_iff_mentions⟩
    · rw [writesProperty_iff_flat hflat]
      exact found_enter_iff hkind hspells (mt (writesAngleGroup_of_flat hflat) hnone) hold
    · obtain ⟨r, hr, hedition⟩ := exists_requirement_of_writes hkind hspells hwrites.flat
      have hreported (target : Edition) (hold : target < .es2018) :
          (firstNewer text.toList target program).isSome :=
        isSome_firstNewer_iff.2 ⟨n, hn, r, hr, hedition ▸ hold⟩
      exact ⟨hreported, fun v hold => Parser.script.validate_ne_pass hparse (hreported v.edition hold)⟩

/-- A property escape behind a class is raised, also for the last edition without them. -/
theorem property_escapes_raised_behind_class :
    ∃ program, parse "/[\\]]\\p\x7bL\x7d/u".toList = .ok program
      ∧ (∃ n ∈ program.preorder, (({ target := .es2017 } : Search).enter
          "/[\\]]\\p\x7bL\x7d/u".toList n).found = some ⟨.regExpPropertyEscape, n.span⟩)
      ∧ (firstNewer "/[\\]]\\p\x7bL\x7d/u".toList .es2017 program).isSome := by
  have hread : (parse "/[\\]]\\p\x7bL\x7d/u".toList).toOption.any (fun program =>
      program.preorder.any fun n => n.kind == .regExpLiteral
        && decide (SpellsRegExp (n.span.slice "/[\\]]\\p\x7bL\x7d/u".toList)
          "[\\]]\\p\x7bL\x7d".toList ['u'])) := by decide +kernel
  obtain ⟨program, hparse, hread⟩ := exists_of_any_parse hread
  obtain ⟨n, hn, hread⟩ := List.any_eq_true.1 hread
  obtain ⟨hkind, hspells⟩ := Bool.and_eq_true_iff.1 hread
  have hwrites : WritesProperty (nestClasses ['u']) "[\\]]\\p\x7bL\x7d".toList :=
    ⟨"[\\]]".toList, 'p', "L\x7d".toList, rfl, .inl rfl, by decide, by decide⟩
  obtain ⟨-, hliteral⟩ := property_escapes_raised "/[\\]]\\p\x7bL\x7d/u" hparse
  obtain ⟨hentered, hraised, -⟩ := hliteral n hn (beq_iff_eq.1 hkind) _ _ (of_decide_eq_true hspells)
  have hfound := hentered (not_writesAngleGroup (by decide)) (fun h => absurd h.1 (by decide)) .es2017
    (by decide)
  exact ⟨program, hparse, ⟨n, hn, hfound.2 hwrites⟩, (hraised hwrites).1 .es2017 (by decide)⟩

/-- The feature is raised for a literal without flags, and it is not raised in a class for one with the
flag that property escapes need. -/
theorem property_escapes_not_gated_by_flags :
    (∃ program, parse "/\\p\x7bL\x7d/".toList = .ok program
        ∧ firstNewer "/\\p\x7bL\x7d/".toList .es5 program = some ⟨.regExpPropertyEscape, ⟨0, 7⟩⟩)
      ∧ (∃ program, parse "/[\\p\x7bL\x7d]/u".toList = .ok program
        ∧ firstNewer "/[\\p\x7bL\x7d]/u".toList .es2017 program = none)
      ∧ MentionsProperty "[\\p\x7bL\x7d]".toList
      ∧ ¬ ∀ (text : String) (program n : Node) (body flags : List Char) (target : Edition),
          parse text.toList = .ok program → n ∈ program.preorder → n.kind = .regExpLiteral →
          SpellsRegExp (n.span.slice text.toList) body flags →
          ¬ WritesAngleGroup (nestClasses flags) body →
          target < .es2018 →
          ((({ target } : Search).enter text.toList n).found = some ⟨.regExpPropertyEscape, n.span⟩
            ↔ ('u' ∈ flags ∨ 'v' ∈ flags) ∧ MentionsProperty body) := by
  have hplain : (parse "/\\p\x7bL\x7d/".toList).toOption.any (fun program =>
      decide (firstNewer "/\\p\x7bL\x7d/".toList .es5 program = some ⟨.regExpPropertyEscape, ⟨0, 7⟩⟩)
        && program.preorder.any fun n => n.kind == .regExpLiteral
          && decide (SpellsRegExp (n.span.slice "/\\p\x7bL\x7d/".toList) "\\p\x7bL\x7d".toList [])) := by
    decide +kernel
  have hclass : (parse "/[\\p\x7bL\x7d]/u".toList).toOption.any (fun program =>
      (firstNewer "/[\\p\x7bL\x7d]/u".toList .es2017 program).isNone) := by decide +kernel
  obtain ⟨program, hparse, hplain⟩ := exists_of_any_parse hplain
  obtain ⟨hraised, hliteral⟩ := Bool.and_eq_true_iff.1 hplain
  obtain ⟨program', hparse', hnone⟩ := exists_of_any_parse hclass
  refine ⟨⟨program, hparse, of_decide_eq_true hraised⟩,
    ⟨program', hparse', Option.isNone_iff_eq_none.1 hnone⟩,
    ⟨['['], 'p', "L\x7d]".toList, rfl, .inl rfl, rfl⟩, fun hall => ?_⟩
  obtain ⟨n, hn, hliteral⟩ := List.any_eq_true.1 hliteral
  obtain ⟨hkind, hspells⟩ := Bool.and_eq_true_iff.1 hliteral
  have hkind := beq_iff_eq.1 hkind
  have hspells := of_decide_eq_true hspells
  have hgroups : ¬ WritesAngleGroup false "\\p\x7bL\x7d".toList := not_writesAngleGroup (by decide)
  have hwrites : WritesProperty false "\\p\x7bL\x7d".toList :=
    ⟨[], 'p', "L\x7d".toList, rfl, .inl rfl, rfl, rfl⟩
  have hold : Edition.es5 < .es2018 := by decide
  have hfound := (found_enter_iff hkind hspells hgroups hold).2 hwrites
  obtain ⟨hflags, -⟩ :=
    (hall _ program n _ _ .es5 hparse hn hkind hspells hgroups hold).1 hfound
  rcases hflags with h | h <;> cases h

end EditionCheck
