import EditionCheck.Proofs.FirstNewer
import EditionCheck.Verdict

/-!
# Verdicts under different versions

A version takes part in a verdict only as the edition that features are compared with. So a text that is
no script is none under every version, and a script that a version accepts is accepted by every later
one. Nothing of this depends on how scripts are told from other texts, so it is stated for any parser.

* `Parser.validate_of_error`, `Parser.validate_of_breaches`, `Parser.validate_of_script` — the verdict of
  a text, by the stage that decides it;
* `firstNewer_none_mono` — what an edition has, a later one has too;
* `validate_across_versions` — how the verdicts of one text under two versions hang together.
-/

set_option autoImplicit false

namespace EditionCheck

open EditionCheck.Scan EditionCheck.Script

namespace Edition

theorem lt_of_le_of_lt {a b c : Edition} (hab : a ≤ b) (hbc : b < c) : a < c :=
  Nat.lt_of_le_of_lt hab hbc

theorem not_lt_of_le {a b : Edition} (h : a ≤ b) : ¬ b < a := Nat.not_lt_of_le h

end Edition

theorem firstNewer_none_mono {source : List Char} {program : Node} {a b : Edition} (hab : a ≤ b)
    (h : firstNewer source a program = none) : firstNewer source b program = none := by
  rw [firstNewer_eq_none_iff] at h ⊢
  intro r hr hb
  exact h r hr (Edition.lt_of_le_of_lt hab hb)

namespace Parser

/-! ## The stage that decides -/

variable (parser : Parser) {text : String} {version : Grammar} {program : Node}

theorem validate_of_error {errors : List SyntaxError} (h : parser.parse text.toList = .error errors)
    (version : Grammar) : parser.validate text version = .malformed (max errors.length 1) := by
  rw [validate_eq, h]

theorem validate_of_breaches (h : parser.parse text.toList = .ok program)
    (hb : parser.breaches program ≠ []) (version : Grammar) :
    parser.validate text version = .malformed (parser.breaches program).length := by
  rw [validate_eq, h]
  cases he : parser.breaches program with
  | nil => exact absurd he hb
  | cons first others => simp only [he]

theorem validate_of_script (h : parser.parse text.toList = .ok program)
    (he : parser.breaches program = []) (version : Grammar) :
    parser.validate text version
      = match firstNewer text.toList version.edition program with
        | none => .pass
        | some r => .feature r.feature.dated := by
  rw [validate_eq, h]
  cases hf : firstNewer text.toList version.edition program with
  | none => simp only [he, hf]
  | some r => simp only [he, hf]

/-- A script in which something is too new does not pass, whether it has early errors or not. -/
theorem validate_ne_pass (h : parser.parse text.toList = .ok program)
    (hnewer : (firstNewer text.toList version.edition program).isSome) :
    parser.validate text version ≠ .pass := by
  cases he : parser.breaches program with
  | nil =>
    rw [validate_of_script parser h he]
    cases hf : firstNewer text.toList version.edition program with
    | none =>
      rw [hf] at hnewer
      cases hnewer
    | some r => simp
  | cons first others =>
    rw [validate_of_breaches parser h (by rw [he]; simp)]
    simp

/-- A text is no script under any version, or a program without early errors. -/
theorem malformed_or_script (text : String) :
    (∃ n, 1 ≤ n ∧ ∀ version, parser.validate text version = .malformed n)
      ∨ ∃ program, parser.parse text.toList = .ok program ∧ parser.breaches program = [] := by
  cases h : parser.parse text.toList with
  | error errors => exact .inl ⟨_, Nat.le_max_right _ _, validate_of_error parser h⟩
  | ok program =>
    by_cases he : parser.breaches program = []
    · exact .inr ⟨program, rfl, he⟩
    · refine .inl ⟨_, ?_, validate_of_breaches parser h he⟩
      exact List.length_pos_iff.2 he

/-! ## Scripts under two editions -/

theorem validate_pass_iff (h : parser.parse text.toList = .ok program)
    (he : parser.breaches program = []) :
    parser.validate text version = .pass
      ↔ firstNewer text.toList version.edition program = none := by
  rw [validate_of_script parser h he]
  cases firstNewer text.toList version.edition program <;> simp

theorem validate_feature_iff (h : parser.parse text.toList = .ok program)
    (he : parser.breaches program = []) {d : DatedFeature} :
    parser.validate text version = .feature d
      ↔ ∃ r, firstNewer text.toList version.edition program = some r ∧ d = r.feature.dated := by
  rw [validate_of_script parser h he]
  cases firstNewer text.toList version.edition program with
  | none => simp
  | some r => simp [eq_comm]

/-- A rejection names a feature that is newer than the version, with its edition. -/
theorem newer_of_validate_feature {d : DatedFeature} (h : parser.validate text version = .feature d) :
    d = d.feature.dated ∧ version.edition < d.edition := by
  rcases parser.malformed_or_script text with ⟨n, -, hn⟩ | ⟨program, hp, he⟩
  · rw [hn] at h
    cases h
  · obtain ⟨r, hr, rfl⟩ := (validate_feature_iff parser hp he).1 h
    exact ⟨rfl, (newer_of_firstNewer hr).1⟩

end Parser

/-! ## The verdicts of one text -/

/-- **Verdicts across versions.** However scripts are told from other texts: a text that a version accepts
is accepted by every later one; a text that is no script has the same number of errors, at least one,
under every version; a feature that is too new for a version makes every earlier one reject the text for a
feature; the feature that is named comes with its own edition, which is newer than the version, and is
never named under a version that has this edition; versions 3 and 4 agree. For `Parser.script`, this is
about `validate`. -/
theorem validate_across_versions (parser : Parser) (text : String) :
    (∀ v w : Grammar, v ≤ w → parser.validate text v = .pass → parser.validate text w = .pass)
      ∧ (∀ (v : Grammar) (n : Nat), parser.validate text v = .malformed n →
          1 ≤ n ∧ ∀ w, parser.validate text w = .malformed n)
      ∧ (∀ (v w : Grammar) (d : DatedFeature), v ≤ w → parser.validate text w = .feature d →
          ∃ d', parser.validate text v = .feature d')
      ∧ (∀ (v : Grammar) (d : DatedFeature), parser.validate text v = .feature d →
          d.edition = d.feature.edition ∧ v.edition < d.edition
            ∧ ∀ (other : String) (w : Grammar) (e : Edition), d.edition ≤ w.edition →
                parser.validate other w ≠ .feature ⟨d.feature, e⟩)
      ∧ parser.validate text .v3 = parser.validate text .v4 := by
  refine ⟨?_, ?_, ?_, ?_, ?_⟩
  · intro v w hvw hv
    rcases parser.malformed_or_script text with ⟨n, -, hn⟩ | ⟨program, hp, he⟩
    · rw [hn] at hv
      cases hv
    · rw [parser.validate_pass_iff hp he] at hv ⊢
      exact firstNewer_none_mono (Grammar.edition_mono hvw) hv
  · intro v n hv
    rcases parser.malformed_or_script text with ⟨k, hk, hn⟩ | ⟨program, hp, he⟩
    · rw [hn] at hv
      obtain rfl : k = n := by simpa using hv
      exact ⟨hk, hn⟩
    · rw [parser.validate_of_script hp he] at hv
      cases hf : firstNewer text.toList v.edition program with
      | none => simp [hf] at hv
      | some r => simp [hf] at hv
  · intro v w d hvw hw
    rcases parser.malformed_or_script text with ⟨n, -, hn⟩ | ⟨program, hp, he⟩
    · rw [hn] at hw
      cases hw
    · obtain ⟨r, hr, -⟩ := (parser.validate_feature_iff hp he).1 hw
      cases hv : firstNewer text.toList v.edition program with
      | none =>
        rw [firstNewer_none_mono (Grammar.edition_mono hvw) hv] at hr
        cases hr
      | some r' => exact ⟨_, (parser.validate_feature_iff hp he).2 ⟨r', hv, rfl⟩⟩
  · intro v d hv
    obtain ⟨hd, hlt⟩ := parser.newer_of_validate_feature hv
    refine ⟨congrArg DatedFeature.edition hd, hlt, ?_⟩
    intro other w e hw ho
    obtain ⟨he, hlt'⟩ := parser.newer_of_validate_feature ho
    have hde : e = d.edition :=
      (congrArg DatedFeature.edition he).trans (congrArg DatedFeature.edition hd).symm
    exact Edition.not_lt_of_le hw (hde ▸ hlt')
  · rcases parser.malformed_or_script text with ⟨n, -, hn⟩ | ⟨program, hp, he⟩
    · rw [hn, hn]
    · rw [parser.validate_of_script hp he, parser.validate_of_script hp he]
      rfl

end EditionCheck
