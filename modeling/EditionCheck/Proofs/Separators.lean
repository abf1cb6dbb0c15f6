import EditionCheck.Proofs.Made.Statement
import EditionCheck.Proofs.Raised
import EditionCheck.Proofs.Versions

/-!
# Numeric separators

Which numbers with a `_` between their digits the walk for newer syntax reports. Numbers and big integers
are two kinds of nodes. The separators of the former came with ES2021, the latter as a whole with ES2020.

* `requires_numericSeparator_iff` — separators are looked for in numbers, but not in big integers;
* `newer_of_separator` — a number or big integer with a separator is too new for every target before
  ES2021, but for a big integer and the target ES2020;
* `separators_reported` — so a script with such a number is reported.
-/

set_option autoImplicit false

namespace EditionCheck.Script

/-! ## Numbers and big integers -/

/-- Whether a node is a number or a big integer. -/
def Kind.isNumeral : Kind → Bool
  | numericLiteral _ => true
  | bigIntLiteral => true
  | _ => false

/-- Whether a token is a number or a big integer. -/
def Token.isNumeral (t : Token) : Bool :=
  match t.lexeme with
  | .number _ => true
  | .bigInt => true
  | _ => false

/-- A number or big integer must be kept in the tree. -/
theorem Token.isKept_of_isNumeral {t : Token} (h : t.isNumeral) : t.isKept := by
  unfold isNumeral at h
  split at h
  · next hlexeme => rw [isKept, hlexeme]
  · next hlexeme => rw [isKept, hlexeme]
  · cases h

/-- The leaf that a number or big integer is kept as is of the same sort. -/
theorem Kind.numeral_of_spells {kind : Kind} {t : Token} (hnumeral : t.isNumeral)
    (hspells : kind.spells t.lexeme) :
    kind.isNumeral ∧ (kind = .bigIntLiteral ↔ t.lexeme = .bigInt) := by
  unfold Token.isNumeral at hnumeral
  split at hnumeral
  · next hlexeme =>
    rw [hlexeme] at hspells ⊢
    cases kind <;> simp [spells, isNumeral] at hspells ⊢
  · next hlexeme =>
    rw [hlexeme] at hspells ⊢
    cases kind <;> simp [spells, isNumeral] at hspells ⊢
  · cases hnumeral

end EditionCheck.Script

namespace EditionCheck.Scan

open EditionCheck.Text EditionCheck.Script Node

variable {source : List Char} {n : Node} {target : Edition}

/-! ## What a number requires -/

theorem mem_numberFeatures_separator {raw : List Char} :
    .numericSeparator ∈ numberFeatures raw ↔ '_' ∈ raw := by
  unfold numberFeatures
  cases isBinaryOrOctal raw <;> by_cases h : '_' ∈ raw <;> simp [h]

/-- **Which nodes require the feature.** -/
theorem requires_numericSeparator_iff :
    requires source .numericSeparator n
      ↔ (∃ legacy, n.kind = .numericLiteral legacy) ∧ '_' ∈ n.span.slice source := by
  obtain ⟨kind, s, cs⟩ := n
  cases kind with
  | numericLiteral legacy =>
    rw [← mem_numberFeatures_separator]
    simp only [requires_iff, ownRequirements, kind_mk, span_mk, mem_requireAt]
    constructor
    · rintro ⟨r, ⟨hr, -⟩, hfeature⟩
      exact ⟨⟨legacy, rfl⟩, hfeature ▸ hr⟩
    · rintro ⟨-, h⟩
      exact ⟨⟨.numericSeparator, s⟩, ⟨h, rfl⟩, rfl⟩
  | _ =>
    rw [requires_eq_false (by simp [Kind.features])]
    simp

theorem ownRequirements_bigInt (h : n.kind = .bigIntLiteral) :
    ownRequirements source n = [⟨.bigInt, n.span⟩] := by
  simp only [ownRequirements, h]

/-- The editions before the one of separators have no big integers, but for the last of them. -/
theorem lt_bigInt_of_lt_separator (hold : target < Feature.numericSeparator.edition)
    (hne : target ≠ .es2020) : target < Feature.bigInt.edition := by
  revert hold hne
  cases target <;> decide

/-- A number or big integer with a separator is too new for a target before ES2021, but for a big integer
and the target ES2020. -/
theorem newer_of_separator (hnumeral : n.kind.isNumeral) (hseparator : '_' ∈ n.span.slice source)
    (hold : target < .es2021) (hgap : n.kind = .bigIntLiteral → target ≠ .es2020) :
    ∃ r ∈ ownRequirements source n, target < r.feature.edition := by
  unfold Kind.isNumeral at hnumeral
  split at hnumeral
  · next legacy hkind =>
    obtain ⟨r, hr, hfeature⟩ :=
      requires_iff.1 (requires_numericSeparator_iff.2 ⟨⟨legacy, hkind⟩, hseparator⟩)
    exact ⟨r, hr, hfeature ▸ hold⟩
  · next hkind =>
    refine ⟨⟨.bigInt, n.span⟩, ?_, lt_bigInt_of_lt_separator hold (hgap hkind)⟩
    rw [ownRequirements_bigInt hkind]
    exact List.mem_singleton.2 rfl
  · cases hnumeral

end EditionCheck.Scan

namespace EditionCheck

open EditionCheck.Text EditionCheck.Scan EditionCheck.Script Node

/-! ## What is reported -/

/-- No version has the edition of big integers. -/
theorem Grammar.edition_lt_bigInt (v : Grammar) : v.edition < Feature.bigInt.edition := by
  cases v <;> decide

/-- **Numbers with separators are reported, but for big integers under ES2020.** A script is read from a
row of tokens, and every number and big integer among them is a node of it. A script with one that is
written with a separator is reported for every target before ES2021, unless it is a big integer and the
target ES2020; no version accepts it. A node requires the feature just when it is a number and written
with a separator; a big integer requires its own feature and nothing else. -/
theorem separators_reported (text : String) {program : Node}
    (hparse : parse text.toList = .ok program) :
    (∃ ts, TokensFrom (firstToken text.toList) ts
        ∧ ∀ t ∈ ts, t.isNumeral → ∃ leaf ∈ program.preorder, leaf.span = t.span
          ∧ leaf.kind.isNumeral ∧ (leaf.kind = .bigIntLiteral ↔ t.lexeme = .bigInt))
      ∧ (∀ n ∈ program.preorder, n.kind.isNumeral → '_' ∈ n.span.slice text.toList →
          (∀ target : Edition, target < .es2021 → (n.kind = .bigIntLiteral → target ≠ .es2020) →
            (firstNewer text.toList target program).isSome)
          ∧ ∀ v : Grammar, validate text v ≠ .pass)
      ∧ (∀ n ∈ program.preorder,
          (requires text.toList .numericSeparator n
            ↔ (∃ legacy, n.kind = .numericLiteral legacy) ∧ '_' ∈ n.span.slice text.toList))
      ∧ ∀ n ∈ program.preorder, n.kind = .bigIntLiteral →
          ownRequirements text.toList n = [⟨.bigInt, n.span⟩] := by
  refine ⟨?_, fun n hn hnumeral hseparator => ?_, fun n _ => requires_numericSeparator_iff,
    fun n _ hkind => ownRequirements_bigInt hkind⟩
  · obtain ⟨ts, htokens, hkept⟩ := tokens_of_parse hparse
    refine ⟨ts, htokens, fun t ht hnumeral => ?_⟩
    obtain ⟨leaf, hleaf, hspan, hspells⟩ := hkept t ht (t.isKept_of_isNumeral hnumeral)
    exact ⟨leaf, hleaf, hspan, Kind.numeral_of_spells hnumeral hspells⟩
  · have hreported (target : Edition) (hold : target < .es2021)
        (hgap : n.kind = .bigIntLiteral → target ≠ .es2020) :
        (firstNewer text.toList target program).isSome :=
      isSome_firstNewer_iff.2 ⟨n, hn, newer_of_separator hnumeral hseparator hold hgap⟩
    refine ⟨hreported, fun v => Parser.script.validate_ne_pass hparse (hreported v.edition ?_ fun _ => ?_)⟩
    · exact Nat.lt_trans v.edition_lt_bigInt (by decide : Feature.bigInt.edition < Edition.es2021)
    · rintro heq
      exact absurd v.edition_lt_bigInt (by rw [heq]; decide)

/-- A separator in the key of a property is reported, also for the last edition without separators. -/
theorem separators_reported_key :
    ∃ program, parse "({1_0: 2})".toList = .ok program
      ∧ (firstNewer "({1_0: 2})".toList .es2020 program).isSome := by
  have hread : (parse "({1_0: 2})".toList).toOption.any (fun program =>
      program.preorder.any fun n => n.kind.isNumeral && n.kind != .bigIntLiteral
        && (n.span.slice "({1_0: 2})".toList).contains '_') := by decide +kernel
  obtain ⟨program, hparse, hread⟩ := exists_of_any_parse hread
  obtain ⟨n, hn, hread⟩ := List.any_eq_true.1 hread
  obtain ⟨⟨hnumeral, hkind⟩, hseparator⟩ : (n.kind.isNumeral ∧ n.kind ≠ .bigIntLiteral)
      ∧ '_' ∈ n.span.slice "({1_0: 2})".toList := by simpa using hread
  obtain ⟨-, hreported, -⟩ := separators_reported "({1_0: 2})" hparse
  exact ⟨program, hparse,
    (hreported n hn hnumeral hseparator).1 .es2020 (by decide) fun h => absurd h hkind⟩

/-- A separator in a big integer is not reported for ES2020, which has no separators. -/
theorem big_integer_separator_not_reported :
    (∃ program, parse "1_0n".toList = .ok program
        ∧ firstNewer "1_0n".toList .es2020 program = none)
      ∧ ¬ ∀ (text : String) (program : Node) (target : Edition), parse text.toList = .ok program →
          (∃ n ∈ program.preorder, n.kind.isNumeral ∧ '_' ∈ n.span.slice text.toList) →
          target < .es2021 → (firstNewer text.toList target program).isSome := by
  have hread : (parse "1_0n".toList).toOption.any (fun program =>
      (program.preorder.any fun n => n.kind.isNumeral && (n.span.slice "1_0n".toList).contains '_')
        && (firstNewer "1_0n".toList .es2020 program).isNone) := by decide +kernel
  obtain ⟨program, hparse, hread⟩ := exists_of_any_parse hread
  obtain ⟨hseparated, hnone⟩ := Bool.and_eq_true_iff.1 hread
  have hnone := Option.isNone_iff_eq_none.1 hnone
  refine ⟨⟨program, hparse, hnone⟩, fun hall => ?_⟩
  obtain ⟨n, hn, hnumeral⟩ := List.any_eq_true.1 hseparated
  have hsome := hall _ program .es2020 hparse ⟨n, hn, by simpa using hnumeral⟩ (by decide)
  rw [hnone] at hsome
  cases hsome

end EditionCheck
