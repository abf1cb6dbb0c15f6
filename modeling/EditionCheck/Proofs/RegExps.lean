import EditionCheck.Proofs.PropertyEscapes

/-!
# Regular expressions

Which regular expressions the walk for newer syntax reports, and for what. A literal is taken apart at
its last slash; what its body needs comes first, and then what its flags need, from left to right.

* `filter_bodyFeature`, `exists_lacksFlag_iff` — the editions of what a body and the flags need;
* `found_enterRegExp` — what is found is the feature of the body, or that of the first flag that is too
  new;
* `reg_exp_reported` — all of it together, for every body and all flags.
-/

set_option autoImplicit false

namespace EditionCheck.Scan

open EditionCheck.Text EditionCheck.Script Node

variable {body flags : List Char} {flag : Char} {target : Edition} {span : Span} {f : Feature}

/-! ## Bodies and flags -/

/-- What is found in a body is as old as ES2018, so a target lacks it just when it is older. -/
theorem filter_bodyFeature (target : Edition) (body : List Char) :
    ((bodyFeature false body).filter fun f => decide (target < f.edition))
      = if target < .es2018 then bodyFeature false body else none := by
  cases hf : bodyFeature false body with
  | none => simp
  | some f => simp [Option.filter_some, edition_of_bodyFeature hf]

/-- Whether a target lacks the feature of a flag. -/
def lacksFlag (target : Edition) (flag : Char) : Bool :=
  (flagFeature flag).any fun f => decide (target < f.edition)

theorem lacksFlag_iff :
    lacksFlag target flag
      ↔ (flag = 'u' ∨ flag = 'y') ∧ target < .es2015 ∨ flag = 's' ∧ target < .es2018
        ∨ flag = 'd' ∧ target < .es2022 ∨ flag = 'v' ∧ target < .es2024 := by
  unfold lacksFlag flagFeature
  split
  iterate 5
    rw [Option.any_some, decide_eq_true_iff]
    simp [Feature.edition]
  next hu hy hs hd hv =>
    have hnone : ¬ (flag = 'u' ∨ flag = 'y') := not_or.2 ⟨hu, hy⟩
    simp [hnone, show ¬ flag = 's' from hs, show ¬ flag = 'd' from hd, show ¬ flag = 'v' from hv]

/-- Whether one of the flags is too new, edition by edition. -/
theorem exists_lacksFlag_iff :
    (∃ flag ∈ flags, lacksFlag target flag)
      ↔ ('u' ∈ flags ∨ 'y' ∈ flags) ∧ target < .es2015 ∨ 's' ∈ flags ∧ target < .es2018
        ∨ 'd' ∈ flags ∧ target < .es2022 ∨ 'v' ∈ flags ∧ target < .es2024 := by
  simp only [lacksFlag_iff]
  grind

/-- **What is found in a literal**: the feature of its body if that is too new, or else the feature of the
first flag that is too new. -/
theorem found_enterRegExp (hflags : '/' ∉ flags) :
    (({ target } : Search).enterRegExp ('/' :: (body ++ '/' :: flags)) span).found
      = ((if target < .es2018 then bodyFeature false body else none).or
          ((flags.find? (lacksFlag target)).bind flagFeature)).map (⟨·, span⟩) := by
  have hbody (o : Option Feature) (p : Feature → Bool) : o.toList.find? p = o.filter p := by
    cases o with
    | none => rfl
    | some f =>
      rw [Option.toList_some, List.find?_singleton, Option.filter_some]
  rw [Search.enterRegExp_eq, Search.found_foldl_consider, Option.none_or, regExpFeatures_literal hflags,
    requireAt, List.find?_map, List.find?_append, List.find?_filterMap, hbody, ← filter_bodyFeature]
  rfl

/-- What is found among the flags is the feature of the first one that is too new. -/
theorem find?_flags_iff :
    (flags.find? (lacksFlag target)).bind flagFeature = some f
      ↔ ∃ front flag back, flags = front ++ flag :: back ∧ flagFeature flag = some f
          ∧ target < f.edition
          ∧ ∀ c ∈ front, ∀ g, flagFeature c = some g → ¬ target < g.edition := by
  have hkeeps (c : Char) : lacksFlag target c = false
      ↔ ∀ g, flagFeature c = some g → ¬ target < g.edition := by
    unfold lacksFlag
    cases flagFeature c <;> simp
  simp only [Option.bind_eq_some_iff, List.find?_eq_some_iff_append, Bool.not_eq_true', hkeeps]
  constructor
  · rintro ⟨flag, ⟨hlacks, front, back, hsplit, hfront⟩, hf⟩
    rw [lacksFlag, hf, Option.any_some, decide_eq_true_iff] at hlacks
    exact ⟨front, flag, back, hsplit, hf, hlacks, hfront⟩
  · rintro ⟨front, flag, back, hsplit, hf, hnew, hfront⟩
    have hlacks : lacksFlag target flag = true := by
      rw [lacksFlag, hf, Option.any_some, decide_eq_true_iff]
      exact hnew
    exact ⟨flag, ⟨hlacks, front, back, hsplit, hfront⟩, hf⟩

/-- Something is found among the flags just when one of them is too new. -/
theorem isSome_flags_iff :
    ((flags.find? (lacksFlag target)).bind flagFeature).isSome ↔ ∃ flag ∈ flags, lacksFlag target flag := by
  rw [← List.find?_isSome]
  cases hfound : flags.find? (lacksFlag target) with
  | none => simp
  | some flag =>
    have hlacks : lacksFlag target flag = true := List.find?_some hfound
    obtain ⟨f, hf, -⟩ := (Option.any_eq_true _ _).1 hlacks
    simp [hf]

end EditionCheck.Scan

namespace EditionCheck

open EditionCheck.Text EditionCheck.Scan EditionCheck.Script Node

/-- **What a regular expression is reported for.** A literal with any body and any flags is taken apart
into just these. For every target, entering it finds something just when the body needs ES2018 and the
target is older, or one of the flags is newer than the target; and it finds the feature of the body if
that is too new, or else that of the first flag that is. A literal by itself is reported for it. -/
theorem reg_exp_reported (body flags : List Char) (hflags : '/' ∉ flags) (target : Edition)
    (span : Span) :
    splitAtLastSlash ('/' :: (body ++ '/' :: flags)) = ('/' :: body, flags)
      ∧ dropSlash ('/' :: body) = body
      ∧ ((({ target } : Search).enterRegExp ('/' :: (body ++ '/' :: flags)) span).found.isSome
          ↔ (bodyFeature false body).isSome ∧ target < .es2018
            ∨ ('u' ∈ flags ∨ 'y' ∈ flags) ∧ target < .es2015
            ∨ 's' ∈ flags ∧ target < .es2018 ∨ 'd' ∈ flags ∧ target < .es2022
            ∨ 'v' ∈ flags ∧ target < .es2024)
      ∧ (∀ f, bodyFeature false body = some f → target < .es2018 →
          (({ target } : Search).enterRegExp ('/' :: (body ++ '/' :: flags)) span).found
            = some ⟨f, span⟩)
      ∧ (¬ ((bodyFeature false body).isSome ∧ target < .es2018) → ∀ f,
          ((({ target } : Search).enterRegExp ('/' :: (body ++ '/' :: flags)) span).found
              = some ⟨f, span⟩
            ↔ ∃ front flag back, flags = front ++ flag :: back ∧ flagFeature flag = some f
                ∧ target < f.edition
                ∧ ∀ c ∈ front, ∀ g, flagFeature c = some g → ¬ target < g.edition))
      ∧ ∀ (source : List Char) (n : Node), n.kind = .regExpLiteral → n.children = [] →
          n.span.slice source = '/' :: (body ++ '/' :: flags) →
            firstNewer source target n
              = (({ target } : Search).enterRegExp ('/' :: (body ++ '/' :: flags)) n.span).found := by
  have hsplit : splitAtLastSlash ('/' :: (body ++ '/' :: flags)) = ('/' :: body, flags) := by
    rw [← List.cons_append, splitAtLastSlash_literal hflags]
  refine ⟨hsplit, rfl, ?_, fun f hf hold => ?_, fun hnone f => ?_,
    fun source n hkind hchildren hspells => ?_⟩
  · rw [found_enterRegExp hflags, Option.isSome_map, Option.isSome_or, Bool.or_eq_true,
      isSome_flags_iff, exists_lacksFlag_iff]
    simp [apply_ite, and_comm]
  · rw [found_enterRegExp hflags, if_pos hold, hf, Option.some_or, Option.map_some]
  · have hquiet : (if target < .es2018 then bodyFeature false body else none) = none := by
      split
      · next hold => exact Option.not_isSome_iff_eq_none.1 fun hsome => hnone ⟨hsome, hold⟩
      · rfl
    rw [found_enterRegExp hflags, hquiet, Option.none_or, ← find?_flags_iff,
      Option.map_eq_some_iff]
    simp only [Requirement.mk.injEq, and_true, exists_eq_right]
  · obtain ⟨kind, span, children⟩ := n
    cases hkind
    cases hchildren
    show Search.found (Search.enterRegExp (span.slice source) span _) = _
    rw [show span.slice source = _ from hspells]
    rfl

/-- In `/[(?<\/]/gsv` the slash and the opener of a group stand in a class, so the flags decide. -/
theorem reg_exp_reported_class :
    (({ target := .es2017 } : Search).enterRegExp "/[(?<\\/]/gsv".toList ⟨0, 12⟩).found
        = some ⟨.dotAllRegExp, ⟨0, 12⟩⟩
      ∧ (({ target := .es2017 } : Search).enterRegExp "/[/](?<n>)/gsv".toList ⟨0, 14⟩).found
        = some ⟨.regExpNamedGroup, ⟨0, 14⟩⟩ := by
  constructor
  · obtain ⟨-, -, -, -, hflag, -⟩ :=
      reg_exp_reported "[(?<\\/]".toList "gsv".toList (by decide) .es2017 ⟨0, 12⟩
    have hfront : ∀ c ∈ ['g'], ∀ g, flagFeature c = some g → ¬ Edition.es2017 < g.edition := by
      intro c hc g hg
      rw [List.mem_singleton.1 hc] at hg
      cases hg
    apply (hflag (by decide) .dotAllRegExp).2
    exact ⟨['g'], 's', ['v'], rfl, rfl, by decide, hfront⟩
  · obtain ⟨-, -, -, hbody, -⟩ :=
      reg_exp_reported "[/](?<n>)".toList "gsv".toList (by decide) .es2017 ⟨0, 14⟩
    exact hbody .regExpNamedGroup (by decide) (by decide)

end EditionCheck
