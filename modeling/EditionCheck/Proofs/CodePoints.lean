import EditionCheck.Proofs.Made.Statement
import EditionCheck.Proofs.Raised
import EditionCheck.Proofs.Versions

/-!
# Code point escapes

Which names and strings with an escape of the form `\u{...}` the walk for newer syntax reports.

* `spellsCodePoint_iff` — the escape is found in a text just when an even number of backslashes stands
  in front of its own;
* `requires_codePointEscape_iff` — it is looked for in references, declared names, names of properties
  and strings, but not in labels;
* `code_points_reported` — so every name and string of a script with such an escape is reported, unless
  it is a label.
-/

set_option autoImplicit false

namespace EditionCheck.Scan

open EditionCheck.Text EditionCheck.Script Node

/-! ## Escapes in a text -/

/-- The number of backslashes with which a text ends. -/
def trailingBackslashes (cs : List Char) : Nat := (cs.reverse.takeWhile (· == '\\')).length

/-- A text has a code point escape: behind an even number of backslashes, which escape each other, there
is one more with `u{` behind it. -/
def WritesCodePoint (raw : List Char) : Prop :=
  ∃ front back, raw = front ++ '\\' :: 'u' :: '{' :: back ∧ trailingBackslashes front % 2 = 0

theorem trailingBackslashes_append (front back : List Char) :
    trailingBackslashes (front ++ back) =
      if trailingBackslashes back = back.length then back.length + trailingBackslashes front
      else trailingBackslashes back := by
  rw [trailingBackslashes, List.reverse_append, List.takeWhile_append, List.length_reverse]
  show (if trailingBackslashes back = back.length then _ else _ : List Char).length = _
  split
  · rw [List.length_append, List.length_reverse]
    rfl
  · rfl

theorem trailingBackslashes_cons {c : Char} (h : c ≠ '\\') (cs : List Char) :
    trailingBackslashes (c :: cs) = trailingBackslashes cs := by
  have hc : trailingBackslashes [c] = 0 := by simp [trailingBackslashes, h]
  have happend := trailingBackslashes_append [c] cs
  rw [hc] at happend
  rw [List.singleton_append] at happend
  split at happend
  · next hall => rw [happend, hall]; rfl
  · exact happend

/-- A backslash and the character that it escapes do not change the parity. -/
theorem trailingBackslashes_escape (c : Char) (cs : List Char) :
    trailingBackslashes ('\\' :: c :: cs) % 2 = trailingBackslashes cs % 2 := by
  have hpair : trailingBackslashes ['\\', c] % 2 = 0 := by
    by_cases h : c = '\\' <;> simp [trailingBackslashes, h]
  have happend := trailingBackslashes_append ['\\', c] cs
  rw [List.cons_append, List.singleton_append] at happend
  rw [happend]
  split
  · next hall => omega
  · rfl

theorem spellsCodePoint_iff (raw : List Char) : spellsCodePoint raw ↔ WritesCodePoint raw := by
  fun_induction spellsCodePoint raw with
  | case1 =>
    refine ⟨fun h => absurd h Bool.false_ne_true, ?_⟩
    rintro ⟨front, back, h, -⟩
    cases front <;> cases h
  | case2 back => exact ⟨fun _ => ⟨[], back, rfl, rfl⟩, fun _ => rfl⟩
  | case3 c r hopens ih =>
    rw [ih]
    constructor
    · rintro ⟨front, back, rfl, heven⟩
      exact ⟨'\\' :: c :: front, back, rfl, (trailingBackslashes_escape c front).trans heven⟩
    · rintro ⟨front, back, h, heven⟩
      match front, h with
      | [], h =>
        cases h
        exact (hopens _ rfl rfl).elim
      | [d], h =>
        cases h
        cases heven
      | d :: e :: front, h =>
        cases h
        exact ⟨front, back, rfl, (trailingBackslashes_escape _ front).symm.trans heven⟩
  | case4 c r hopens hescapes ih =>
    have hplain (hr : r ≠ []) : c ≠ '\\' := by
      intro hc
      cases r with
      | nil => exact hr rfl
      | cons d r => exact hescapes d r hc rfl
    rw [ih]
    constructor
    · rintro ⟨front, back, rfl, heven⟩
      refine ⟨c :: front, back, rfl, ?_⟩
      rw [trailingBackslashes_cons (hplain (by simp))]
      exact heven
    · rintro ⟨front, back, h, heven⟩
      cases front with
      | nil =>
        cases h
        exact (hplain (by simp) rfl).elim
      | cons d front =>
        cases h
        rw [trailingBackslashes_cons (hplain (by simp))] at heven
        exact ⟨front, back, rfl, heven⟩

end EditionCheck.Scan

namespace EditionCheck.Script

/-! ## Names and strings -/

/-- Whether a node is looked at for code point escapes. -/
def Kind.showsEscapes : Kind → Bool
  | reference _ => true
  | bindingName _ => true
  | propertyName _ => true
  | stringLiteral _ _ => true
  | _ => false

/-- Whether a node is a label: that of a statement, or of a jump. -/
def Kind.isLabel : Kind → Bool
  | labelName _ => true
  | _ => false

/-- Whether a token is a name of any kind or a string. -/
def Token.isNameOrString (t : Token) : Bool :=
  match t.lexeme with
  | .name _ _ => true
  | .privateName _ => true
  | .string _ _ _ => true
  | _ => false

end EditionCheck.Script

namespace EditionCheck.Scan

open EditionCheck.Text EditionCheck.Script Node

variable {source text : List Char} {n : Node} {t : Token} {target : Edition}

/-- **Which nodes require the feature.** -/
theorem requires_codePointEscape_iff :
    requires source .codePointEscape n
      ↔ n.kind.showsEscapes ∧ WritesCodePoint (n.span.slice source) := by
  rw [← spellsCodePoint_iff]
  obtain ⟨kind, s, cs⟩ := n
  cases kind with
  | reference | bindingName | propertyName | stringLiteral =>
    simp only [requires_iff, ownRequirements, kind_mk, span_mk, mem_requireAt, mem_escapeFeatures,
      Kind.showsEscapes, true_and]
    constructor
    · rintro ⟨r, ⟨⟨-, hspells⟩, -⟩, -⟩
      exact hspells
    · exact fun hspells => ⟨⟨.codePointEscape, s⟩, ⟨⟨rfl, hspells⟩, rfl⟩, rfl⟩
  | _ =>
    rw [requires_eq_false (by simp [Kind.features])]
    simp [Kind.showsEscapes]

/-- A name or string with such an escape must be kept in the tree. -/
theorem isKept_of_writesCodePoint (ht : t.StandsIn text) (hname : t.isNameOrString)
    (hwrites : WritesCodePoint (t.span.slice text)) : t.isKept := by
  obtain ⟨front, back, hslice, -⟩ := hwrites
  unfold Token.isNameOrString at hname
  split at hname
  · next x escaped hlexeme =>
    cases escaped with
    | true => rw [Token.isKept, hlexeme]
    | false =>
      have hnone := ht.no_backslash hlexeme
      rw [hslice] at hnone
      exact absurd (List.mem_append_right _ List.mem_cons_self) hnone
  · next hlexeme => rw [Token.isKept, hlexeme]
  · next hlexeme => rw [Token.isKept, hlexeme]
  · cases hname

/-- The leaf that a name or string is kept as. -/
theorem kind_of_spells {kind : Kind} (hname : t.isNameOrString) (hspells : kind.spells t.lexeme) :
    kind.isLabel ∨ kind.showsEscapes ∨ ∃ x, kind = .privateName x := by
  unfold Token.isNameOrString at hname
  split at hname
  case h_4 => cases hname
  all_goals
    rename_i hlexeme
    rw [hlexeme] at hspells
    cases kind <;> simp [Kind.spells, Kind.isLabel, Kind.showsEscapes] at hspells ⊢

/-- A leaf for a name or string with such an escape is too new for a target before ES2015, unless it is
a label. -/
theorem newer_of_leaf (hold : target < .es2015) (hname : t.isNameOrString)
    (hwrites : WritesCodePoint (t.span.slice source)) (hspan : n.span = t.span)
    (hspells : n.kind.spells t.lexeme) :
    n.kind.isLabel ∨ ∃ r ∈ ownRequirements source n, target < r.feature.edition := by
  rcases kind_of_spells hname hspells with hlabel | hshows | ⟨x, hprivate⟩
  · exact .inl hlabel
  · rw [← hspan] at hwrites
    obtain ⟨r, hr, hfeature⟩ := requires_iff.1 (requires_codePointEscape_iff.2 ⟨hshows, hwrites⟩)
    exact .inr ⟨r, hr, hfeature ▸ hold⟩
  · have hlater : Edition.es2015 < Feature.privateName.edition := by decide
    refine .inr ⟨⟨.privateName, n.span⟩, ?_, Nat.lt_trans hold hlater⟩
    simp only [ownRequirements, hprivate]
    exact List.mem_singleton.2 rfl

end EditionCheck.Scan

namespace EditionCheck

open EditionCheck.Text EditionCheck.Scan EditionCheck.Script Node

/-! ## What is reported -/

/-- **Names and strings with a code point escape are reported, but for labels.** A script is read from a
row of tokens; a name or string among them that is written with a code point escape is a label, or the
script is reported for every target before ES2015 and does not pass. A node of the script requires the
feature just when it is no label, but another name or a string, and is written with such an escape; a
label requires nothing. -/
theorem code_points_reported (text : String) {program : Node}
    (hparse : parse text.toList = .ok program) :
    (∃ ts, TokensFrom (firstToken text.toList) ts
        ∧ ∀ t ∈ ts, t.isNameOrString → WritesCodePoint (t.span.slice text.toList) →
          (∃ leaf ∈ program.preorder, leaf.span = t.span ∧ leaf.kind.isLabel)
          ∨ ∀ target : Edition, target < .es2015 →
              (firstNewer text.toList target program).isSome
                ∧ ∀ v : Grammar, v.edition = target → validate text v ≠ .pass)
      ∧ (∀ n ∈ program.preorder,
          (requires text.toList .codePointEscape n
            ↔ n.kind.showsEscapes ∧ WritesCodePoint (n.span.slice text.toList)))
      ∧ ∀ n ∈ program.preorder, n.kind.isLabel → ownRequirements text.toList n = [] := by
  refine ⟨?_, fun n _ => requires_codePointEscape_iff, fun n _ hlabel => ?_⟩
  · obtain ⟨p, q, hp, hrow, hend⟩ := row_of_parse hparse
    obtain ⟨ts, hpassage, hkept⟩ := hrow.passage
    have htokens := hpassage.tokensFrom (.endOfText hend)
    rw [List.append_nil, hp] at htokens
    refine ⟨ts, htokens, fun t ht hname hwrites => ?_⟩
    have hstands := htokens.standsIn (standsIn_firstToken _) t ht
    obtain ⟨n, hn, leaf, hleaf, hspan, hspells⟩ :=
      hkept t ht (isKept_of_writesCodePoint hstands hname hwrites)
    cases List.mem_singleton.1 hn
    by_cases hlabel : leaf.kind.isLabel
    · exact .inl ⟨leaf, hleaf, hspan, hlabel⟩
    · refine .inr fun target hold => ?_
      have hnewer := (newer_of_leaf hold hname hwrites hspan hspells).resolve_left hlabel
      have hsome := isSome_firstNewer_iff.2 ⟨leaf, hleaf, hnewer⟩
      refine ⟨hsome, ?_⟩
      rintro v rfl
      exact Parser.script.validate_ne_pass hparse hsome
  · unfold Kind.isLabel at hlabel
    split at hlabel
    · next hkind => simp only [ownRequirements, hkind]
    · cases hlabel

/-- A string with a code point escape is reported. -/
theorem code_points_reported_string :
    ∃ program, parse "'\\u\x7b61\x7d'".toList = .ok program
      ∧ ∃ n ∈ program.preorder, requires "'\\u\x7b61\x7d'".toList .codePointEscape n
        ∧ WritesCodePoint (n.span.slice "'\\u\x7b61\x7d'".toList) := by
  have hread : (parse "'\\u\x7b61\x7d'".toList).toOption.any (fun program =>
      program.preorder.any fun n => requires "'\\u\x7b61\x7d'".toList .codePointEscape n) := by
    decide +kernel
  obtain ⟨program, hparse, hrequires⟩ := exists_of_any_parse hread
  obtain ⟨n, hn, hrequires⟩ := List.any_eq_true.1 hrequires
  obtain ⟨-, hiff, -⟩ := code_points_reported "'\\u\x7b61\x7d'" hparse
  exact ⟨program, hparse, n, hn, hrequires, ((hiff n hn).1 hrequires).2⟩

/-- A label with a code point escape is not reported, and the script passes. -/
theorem label_code_point_not_reported :
    validate "\\u\x7b61\x7d: ;" .v5 = .pass
      ∧ ¬ ∀ (text : String) (program : Node) (target : Edition), parse text.toList = .ok program →
          (∃ n ∈ program.preorder, (n.kind.showsEscapes ∨ n.kind.isLabel)
            ∧ WritesCodePoint (n.span.slice text.toList)) →
          target < .es2015 → (firstNewer text.toList target program).isSome := by
  refine ⟨by decide +kernel, fun hall => ?_⟩
  have hread : (parse "\\u\x7b61\x7d: ;".toList).toOption.any (fun program =>
      (program.preorder.any fun n =>
          n.kind.isLabel && spellsCodePoint (n.span.slice "\\u\x7b61\x7d: ;".toList))
        && (firstNewer "\\u\x7b61\x7d: ;".toList .es5 program).isNone) := by decide +kernel
  obtain ⟨program, hparse, hread⟩ := exists_of_any_parse hread
  obtain ⟨hlabel, hnone⟩ := Bool.and_eq_true_iff.1 hread
  obtain ⟨n, hn, hlabel⟩ := List.any_eq_true.1 hlabel
  obtain ⟨hlabel, hspells⟩ := Bool.and_eq_true_iff.1 hlabel
  have hsome := hall _ program .es5 hparse
    ⟨n, hn, .inr hlabel, (spellsCodePoint_iff _).1 hspells⟩ (by decide)
  rw [Option.isNone_iff_eq_none.1 hnone] at hsome
  cases hsome

end EditionCheck
