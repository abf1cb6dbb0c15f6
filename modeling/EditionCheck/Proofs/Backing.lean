import EditionCheck.Proofs.Placement
import EditionCheck.Proofs.PropertyEscapes
import EditionCheck.Proofs.Separators
import EditionCheck.Proofs.TrailingCommas

/-!
# Reports are backed by the text

What is reported is a part of the text in which the feature can be seen.

* `stretch_of_mem` — whatever a script requires stands at a part of the text that is not empty;
* `Feature.Shows` — what is seen of a feature in its part of the text;
* `shows_of_regExpFeatures`, `getLast?_of_closesAt` — the flags and the body of a regular expression, and
  the character that closes a list;
* `shows_of_mem` — what a script requires is seen where it stands;
* `reported_part_shows` — so it is for everything that is reported.
-/

set_option autoImplicit false

namespace EditionCheck.Scan

open EditionCheck.Text EditionCheck.Script Node

variable {text front part back body raw : List Char} {n : Node} {r : Requirement} {f : Feature}

/-! ## Where features stand -/

/-- **What a script requires stands at a part of the text that is not empty.** -/
theorem stretch_of_mem (h : n.Faithful text) (hr : r ∈ ownRequirements text n) :
    Stretch text r.span := by
  cases requiredAt_of_mem h.fits hr with
  | node hkind hspan =>
    rw [hspan]
    exact h.stretch (Kind.isBlank_of_isUser hkind)
  | part c hc hkind hr =>
    subst hr
    exact (h.children c hc).stretch hkind
  | mark _ hmark hat =>
    obtain ⟨rest, rfl⟩ := hmark
    rw [hat]
    exact ⟨Cursor.standsIn_ofOffset [] _, Cursor.standsIn_ofOffset ['#', '!'] rest, Nat.two_pos⟩
  | comma l hclosed hl hlt _ _ hspan =>
    obtain ⟨⟨-, hbehind⟩, hends⟩ := hclosed l hl
    obtain ⟨t, ht, -, hstop⟩ := hends hlt
    rw [hspan]
    exact ⟨hbehind.standsIn, hstop ▸ ht.stop, hlt⟩

/-! ## What is seen of a feature -/

/-- A text ends a list: white space and a comma come first, and the closing character comes last. -/
def EndsList (close : Char) (part : List Char) : Prop :=
  ∃ blanks middle, part = blanks ++ ',' :: (middle ++ [close]) ∧ ∀ c ∈ blanks, isWhiteSpace c = true

/-- Behind its last slash, a text has one of some flags. -/
def HasFlag (marks part : List Char) : Prop :=
  ∃ front flags flag, part = front ++ '/' :: flags ∧ '/' ∉ flags ∧ flag ∈ flags ∧ flag ∈ marks

/-- In front of its last slash, a text has a body of which something holds. -/
def HasBody (P : List Char → Prop) (part : List Char) : Prop :=
  ∃ front flags, part = front ++ '/' :: flags ∧ '/' ∉ flags ∧ P (dropSlash front)

/-- A body has a lookbehind outside of its character classes. -/
def WritesLookbehind (body : List Char) : Prop :=
  ∃ front sign back, body = front ++ '(' :: '?' :: '<' :: sign :: back ∧ (sign = '=' ∨ sign = '!')
    ∧ WholeParts front

/-- A body has a named group outside of its character classes. -/
def WritesNamedGroup (body : List Char) : Prop :=
  ∃ front back, body = front ++ '(' :: '?' :: '<' :: back ∧ back.head? ≠ some '='
    ∧ back.head? ≠ some '!' ∧ WholeParts front

end EditionCheck.Scan

namespace EditionCheck

open EditionCheck.Text EditionCheck.Scan

/-- Whether a feature has a mark of its own in the text, and is no whole construct. -/
def Feature.isMarked : Feature → Bool
  | hashbang => true
  | functionTrailingComma => true
  | objectTrailingComma => true
  | codePointEscape => true
  | numericSeparator => true
  | binaryOctalLiteral => true
  | stickyUnicodeRegExp => true
  | dotAllRegExp => true
  | regExpIndices => true
  | regExpUnicodeSets => true
  | regExpLookbehind => true
  | regExpNamedGroup => true
  | regExpPropertyEscape => true
  | _ => false

/-- What is seen of a feature in its part of a text, behind the text in front of it. The features that
have no mark of their own in the text are those of whole constructs. -/
def Feature.Shows (front part : List Char) : Feature → Prop
  | hashbang => front = [] ∧ part = ['#', '!']
  | functionTrailingComma => EndsList ')' part
  | objectTrailingComma => EndsList '\x7d' part
  | codePointEscape => WritesCodePoint part
  | numericSeparator => '_' ∈ part
  | binaryOctalLiteral => ∃ b digits, part = '0' :: b :: digits ∧ b ∈ ['b', 'B', 'o', 'O']
  | stickyUnicodeRegExp => HasFlag ['u', 'y'] part
  | dotAllRegExp => HasFlag ['s'] part
  | regExpIndices => HasFlag ['d'] part
  | regExpUnicodeSets => HasFlag ['v'] part
  | regExpLookbehind => HasBody WritesLookbehind part
  | regExpNamedGroup => HasBody WritesNamedGroup part
  | regExpPropertyEscape => HasBody (WritesProperty false) part
  | _ => True

end EditionCheck

namespace EditionCheck.Scan

open EditionCheck.Text EditionCheck.Script Node

variable {text front part back body raw : List Char} {n : Node} {r : Requirement} {f : Feature}

/-! ## Literals -/

theorem shows_of_mem_features {features : List Feature} (hf : f ∈ features)
    (hnone : features.any Feature.isMarked = false) : f.Shows front part := by
  have hplain : f.isMarked = false := by simpa using List.any_eq_false.1 hnone f hf
  cases f <;> trivial

theorem shows_of_numberFeatures (h : f ∈ numberFeatures raw) : f.Shows front raw := by
  rcases List.mem_append.1 h with h | h
  · split at h
    · next hbase =>
      cases List.mem_singleton.1 h
      unfold isBinaryOrOctal at hbase
      split at hbase
      · next b digits => exact ⟨b, digits, rfl, by simpa [or_assoc] using hbase⟩
      · cases hbase
    · cases h
  · split at h
    · next hseparator =>
      cases List.mem_singleton.1 h
      exact List.contains_iff_mem.1 hseparator
    · cases h

/-- What is found in a body is seen in it. -/
theorem shows_of_bodyFeature {flags : List Char} (h : bodyFeature false (dropSlash body) = some f)
    (hflags : '/' ∉ flags) : f.Shows front (body ++ '/' :: flags) := by
  obtain ⟨before, rest, hbody, hbefore, hrest⟩ := opening_of_bodyFeature h
  have hwhole : WholeParts before := hbefore
  unfold opening at hrest
  split at hrest
  · cases hrest
    exact ⟨body, flags, rfl, hflags, before, 'p', _, hbody, .inl rfl, wholeParts_iff.1 hwhole⟩
  · cases hrest
    exact ⟨body, flags, rfl, hflags, before, 'P', _, hbody, .inr rfl, wholeParts_iff.1 hwhole⟩
  · next behind =>
    cases hrest
    unfold angleGroup
    split
    · exact ⟨body, flags, rfl, hflags, before, '=', _, hbody, .inl rfl, hwhole⟩
    · exact ⟨body, flags, rfl, hflags, before, '!', _, hbody, .inr rfl, hwhole⟩
    · next hequals hbang =>
      refine ⟨body, flags, rfl, hflags, before, behind, hbody, fun hhead => ?_, fun hhead => ?_, hwhole⟩
      · obtain ⟨more, hmore⟩ := List.head?_eq_some_iff.1 hhead
        exact hequals more hmore
      · obtain ⟨more, hmore⟩ := List.head?_eq_some_iff.1 hhead
        exact hbang more hmore
  · cases hrest

theorem shows_of_flagFeature {flags : List Char} {flag : Char} (h : flagFeature flag = some f)
    (hflag : flag ∈ flags) (hflags : '/' ∉ flags) : f.Shows front (body ++ '/' :: flags) := by
  unfold flagFeature at h
  split at h <;> cases h <;> exact ⟨body, flags, _, rfl, hflags, hflag, by decide⟩

/-- A text with a slash has a last one. -/
theorem exists_lastSlash (h : '/' ∈ raw) : ∃ body flags, raw = body ++ '/' :: flags ∧ '/' ∉ flags := by
  obtain ⟨flags, body, hraw, hflags⟩ := List.eq_append_cons_of_mem (List.mem_reverse.2 h)
  refine ⟨body.reverse, flags.reverse, ?_, fun hmem => hflags (List.mem_reverse.1 hmem)⟩
  rw [← List.reverse_reverse raw, hraw]
  simp

theorem shows_of_regExpFeatures (h : f ∈ regExpFeatures raw) : f.Shows front raw := by
  by_cases hslash : '/' ∈ raw
  · obtain ⟨body, flags, rfl, hflags⟩ := exists_lastSlash hslash
    rw [regExpFeatures, splitAtLastSlash_literal hflags] at h
    rcases List.mem_append.1 h with h | h
    · exact shows_of_bodyFeature (Option.mem_toList.1 h) hflags
    · obtain ⟨flag, hflag, h⟩ := List.mem_filterMap.1 h
      exact shows_of_flagFeature h hflag hflags
  · rw [regExpFeatures, splitAtLastSlash, if_neg (by simpa using hslash)] at h
    cases h

/-! ## Ends of lists -/

/-- A part of a text at whose end a punctuator closes a list ends with the character of that
punctuator. -/
theorem getLast?_of_closesAt {close : Punctuator} {c : Char}
    (hspelled : ∀ entry ∈ Punctuator.table, entry.2 = close → entry.1 = [c])
    (h : ClosesAt (front ++ (part ++ back)) close (byteLength front + byteLength part))
    (hpart : part ≠ []) : part.getLast? = some c := by
  obtain ⟨t, ht, hclose, hstop⟩ := h
  have hlexeme := lexeme_of_isPunctuator hclose
  obtain ⟨spelling, hmem, -, hslice⟩ := ht.spelling hlexeme
  obtain ⟨before, shown, behind, htext, -, hspan⟩ := (ht.stretch (by rw [hlexeme]; rfl)).exists_part
  have hspelling : spelling = [c] := hspelled _ hmem rfl
  rw [hspan, htext, Span.slice_append, hspelling] at hslice
  subst hslice
  rw [hspan] at hstop
  have heq : front ++ part = before ++ [c] := by
    rw [← List.append_assoc, ← List.append_assoc] at htext
    refine eq_of_byteLength_eq htext ?_
    rw [byteLength_append, byteLength_append]
    exact hstop.symm
  have hlast := congrArg List.getLast? heq
  rw [List.getLast?_append, List.getLast?_append] at hlast
  simpa [List.getLast?_eq_some_getLast hpart] using hlast

theorem spelling_of_rparen : ∀ entry ∈ Punctuator.table, entry.2 = .rparen → entry.1 = [')'] := by
  decide

theorem spelling_of_rbrace : ∀ entry ∈ Punctuator.table, entry.2 = .rbrace → entry.1 = ['\x7d'] := by
  decide

theorem endsList_of_comma {c : Char} (hc : c ≠ ',') (hcomma : beginsWithComma part)
    (hlast : part.getLast? = some c) : EndsList c part := by
  obtain ⟨blanks, rest, rfl, hblanks⟩ := beginsWithComma_iff.1 hcomma
  rw [List.getLast?_append, List.getLast?_cons, Option.some_or] at hlast
  cases hrest : rest.getLast? with
  | none =>
    rw [hrest] at hlast
    exact absurd (Option.some.inj hlast).symm hc
  | some d =>
    rw [hrest] at hlast
    cases hlast
    obtain ⟨middle, rfl⟩ := List.getLast?_eq_some_iff.1 hrest
    exact ⟨blanks, middle, rfl, hblanks⟩

/-! ## Nodes -/

/-- What a node requires itself is seen in its text. -/
theorem shows_of_isUser (hkind : n.kind.isUser = true) (hr : r ∈ ownRequirements text n) :
    r.feature.Shows front (n.span.slice text) := by
  have hfeature := mem_features_of_mem hr
  obtain ⟨kind, s, cs⟩ := n
  cases kind with
  | reference | bindingName | propertyName | stringLiteral =>
    obtain ⟨hescape, hspells⟩ := mem_escapeFeatures.1 (mem_requireAt.1 hr).1
    rw [hescape]
    exact (spellsCodePoint_iff _).1 hspells
  | numericLiteral => exact shows_of_numberFeatures (mem_requireAt.1 hr).1
  | regExpLiteral => exact shows_of_regExpFeatures (mem_requireAt.1 hr).1
  | program | hole | objectLiteral | call | newCall | parameters => cases hkind
  | _ =>
    exact shows_of_mem_features hfeature rfl

/-- **What a script requires is seen where it stands.** -/
theorem shows_of_mem (hfits : n.Fits text) (hr : r ∈ ownRequirements text n)
    (htext : text = front ++ (part ++ back)) (hpart : part ≠ [])
    (hspan : r.span = ⟨byteLength front, byteLength front + byteLength part⟩) :
    r.feature.Shows front part := by
  cases requiredAt_of_mem hfits hr with
  | node hkind hat =>
    have hslice : n.span.slice text = part := by rw [← hat, hspan, htext, Span.slice_append]
    exact hslice ▸ shows_of_isUser hkind hr
  | part c _ _ hr =>
    subst hr
    trivial
  | mark _ hmark hr =>
    subst hr
    obtain ⟨rest, hrest⟩ := hmark
    obtain ⟨hfront, hlength⟩ := Span.mk.inj hspan
    have hnil : [] ++ (front ++ (part ++ back)) = front ++ (part ++ back) := rfl
    have hfront : front = [] := eq_of_byteLength_eq hnil.symm hfront.symm
    subst hfront
    refine ⟨rfl, eq_of_byteLength_eq (htext.symm.trans hrest.symm) ?_⟩
    exact (Nat.zero_add _).symm.trans hlength.symm
  | comma l hclosed hl hlt hcomma hcloser hat =>
    obtain ⟨-, hends⟩ := hclosed l hl
    obtain ⟨hstart, hstop⟩ := Span.mk.inj (hat.symm.trans hspan)
    rw [hstart, hstop, htext, Span.slice_append] at hcomma
    have hclose := hends hlt
    rw [hstop, htext] at hclose
    cases hfeature : r.feature with
    | functionTrailingComma =>
      rw [hfeature] at hcloser
      cases hcloser
      exact endsList_of_comma (by decide) hcomma (getLast?_of_closesAt spelling_of_rparen hclose hpart)
    | objectTrailingComma =>
      rw [hfeature] at hcloser
      cases hcloser
      exact endsList_of_comma (by decide) hcomma (getLast?_of_closesAt spelling_of_rbrace hclose hpart)
    | _ =>
      rw [hfeature] at hcloser
      cases hcloser

end EditionCheck.Scan

namespace EditionCheck

open EditionCheck.Text EditionCheck.Scan EditionCheck.Script Node

/-! ## Reports -/

/-- **Every report is backed by its text.** What is reported for a target is newer than the target, and its
span cuts a part out of the text, from one character to another, that is not empty and shows the feature. -/
theorem reported_part_shows (text : String) {program : Node} {target : Edition} {r : Requirement}
    (hparse : parse text.toList = .ok program)
    (hreport : firstNewer text.toList target program = some r) :
    target < r.feature.edition
      ∧ ∃ front part back, text.toList = front ++ (part ++ back) ∧ part ≠ []
          ∧ r.span = ⟨byteLength front, byteLength front + byteLength part⟩
          ∧ r.span.slice text.toList = part ∧ r.feature.Shows front part := by
  obtain ⟨hnewer, hr⟩ := newer_of_firstNewer hreport
  obtain ⟨n, hn, hr⟩ := List.mem_flatMap.1 hr
  have hfaithful := (faithful_of_parse hparse).of_mem hn
  obtain ⟨front, part, back, htext, hpart, hspan⟩ := (stretch_of_mem hfaithful hr).exists_part
  refine ⟨hnewer, front, part, back, htext, hpart, hspan, ?_, ?_⟩
  · rw [hspan, htext, Span.slice_append]
  · exact shows_of_mem hfaithful.fits hr htext hpart hspan

/-- A comma behind a letter of two bytes is reported with the closing parenthesis. -/
theorem reported_part_shows_comma :
    ∃ program, parse "f(\u00e9 ,)".toList = .ok program
      ∧ ∃ r, firstNewer "f(\u00e9 ,)".toList .es2016 program = some r
        ∧ r.feature = .functionTrailingComma ∧ r.span = ⟨4, 7⟩
        ∧ ∃ front part back, "f(\u00e9 ,)".toList = front ++ (part ++ back)
            ∧ r.span.slice "f(\u00e9 ,)".toList = part ∧ EndsList ')' part := by
  have hread : (parse "f(\u00e9 ,)".toList).toOption.any (fun program =>
      decide (firstNewer "f(\u00e9 ,)".toList .es2016 program
        = some ⟨.functionTrailingComma, ⟨4, 7⟩⟩)) := by
    decide +kernel
  obtain ⟨program, hparse, hread⟩ := exists_of_any_parse hread
  have hreport := of_decide_eq_true hread
  obtain ⟨-, front, part, back, htext, -, -, hslice, hshows⟩ :=
    reported_part_shows "f(\u00e9 ,)" hparse hreport
  exact ⟨program, hparse, _, hreport, rfl, rfl, front, part, back, htext, hslice, hshows⟩

end EditionCheck
