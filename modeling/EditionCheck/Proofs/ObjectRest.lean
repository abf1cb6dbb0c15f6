import EditionCheck.Proofs.Destructuring
import EditionCheck.Proofs.Made.Statement
import EditionCheck.Proofs.Raised
import EditionCheck.Proofs.Versions

/-!
# Spreads and rests of objects

Where a script spreads an object or takes the rest of one, and which of these places the walk for newer
syntax reports.

* `requires_objectRestSpread` — a node requires the feature just when it is an object literal with a
  spread, a pattern that declares the rest of an object, or an assignment to such a pattern;
* `object_rest_reported` — so these places are always reported, while a rest deeper in the pattern of an
  assignment, or in the head of a loop, contributes nothing.
-/

set_option autoImplicit false

namespace EditionCheck.Script.Node

/-! ## Where rests stand -/

/-- Whether an object literal has a spread. -/
def spreadsObject (n : Node) : Bool :=
  match n.kind with
  | .objectLiteral _ => n.children.any (·.kind == .spreadProperty)
  | _ => false

/-- Whether a pattern declares the rest of an object. -/
def bindsRest (n : Node) : Bool := n.kind == .objectPattern && n.children.any (·.kind == .restElement)

/-- Whether a pattern assigns the rest of an object. -/
def takesRest (n : Node) : Bool := n.kind == .objectTarget && n.children.any (·.kind == .restTarget)

/-- Whether an assignment has such a pattern for its target. -/
def assignsRest (n : Node) : Bool :=
  match n.kind with
  | .assignment _ => n.children.head?.any takesRest
  | _ => false

/-- Whether a spread or rest of an object is looked for and found at a node. -/
def showsRest (n : Node) : Bool := n.spreadsObject || n.bindsRest || n.assignsRest

end EditionCheck.Script.Node

namespace EditionCheck.Scan

open EditionCheck.Text EditionCheck.Script Node

/-! ## Rests come last -/

variable {text source : List Char} {n : Node} {parts : List Node} {rest : Kind} {r : Requirement}

/-- Where a rest can only be the last part, looking at the last part finds it. -/
theorem endsWith_eq_any (h : RestLast rest parts) :
    endsWith rest parts = parts.any (·.kind == rest) := by
  rw [endsWith]
  cases hlast : parts.getLast? with
  | none =>
    rw [List.getLast?_eq_none_iff.1 hlast]
    rfl
  | some l =>
    obtain ⟨front, rfl⟩ := List.getLast?_eq_some_iff.1 hlast
    rw [RestLast, List.dropLast_concat] at h
    have hfront : front.any (·.kind == rest) = false :=
      List.any_eq_false.2 fun c hc => by simpa using h c hc
    rw [List.any_append, hfront]
    simp

/-! ## What requires the feature -/

/-- Of the targets of assignments, an object pattern with a rest of its own requires the feature. -/
theorem any_targetRequirements (hn : n.Faithful text) (span : Span) :
    (targetRequirements span (some n)).any (·.feature == .objectRestSpread) = n.takesRest := by
  obtain ⟨kind, s, parts⟩ := n
  cases kind with
  | objectTarget =>
    have hends : endsWith .restTarget parts = parts.any (·.kind == .restTarget) :=
      endsWith_eq_any hn.fits
    rw [targetRequirements, hends, takesRest, kind_mk, children_mk]
    cases parts.any (·.kind == .restTarget) <;> rfl
  | _ => rfl

/-- **Which nodes require the feature.** -/
theorem requires_objectRestSpread (hn : n.Faithful text) :
    requires source .objectRestSpread n = n.showsRest := by
  obtain ⟨kind, s, cs⟩ := n
  cases kind with
  | objectLiteral trailing =>
    simp only [requires, ownRequirements, kind_mk, children_mk, List.any_append, List.any_map,
      List.any_filter]
    rw [any_commaBehind_ne (by decide)]
    simp [showsRest, spreadsObject, bindsRest, assignsRest]
  | objectPattern =>
    have hends : endsWith .restElement cs = cs.any (·.kind == .restElement) :=
      endsWith_eq_any hn.fits
    simp only [requires, ownRequirements, kind_mk, children_mk, showsRest, spreadsObject, bindsRest,
      assignsRest, ← hends, endsWith]
    cases cs.getLast? with
    | none => rfl
    | some l =>
      rw [Option.any_some, Option.filter_some]
      cases l.kind == .restElement <;> rfl
  | assignment op =>
    have hop : (requireAt s (assignmentFeatures op)).any (·.feature == .objectRestSpread) = false := by
      cases op <;> rfl
    simp only [requires, ownRequirements, kind_mk, children_mk, List.any_append, span_mk, hop,
      Bool.false_or]
    cases hhead : cs.head? with
    | none => simp [targetRequirements, showsRest, spreadsObject, bindsRest, assignsRest, hhead]
    | some head =>
      have hfaithful := hn.children head (List.mem_of_mem_head? hhead)
      rw [any_targetRequirements hfaithful]
      simp [showsRest, spreadsObject, bindsRest, assignsRest, hhead]
  | _ =>
    rw [requires_eq_false (by simp [Kind.features])]
    rfl

end EditionCheck.Scan

namespace EditionCheck

open EditionCheck.Scan EditionCheck.Script Node

/-! ## What is reported -/

variable {source : List Char} {program : Node} {target : Edition}

/-- Which scripts are reported for a target before ES2018: those with a spread or rest that is found,
and those in which anything else is too new. -/
theorem isSome_firstNewer_iff_showsRest (hprogram : program.Faithful source)
    (hold : target < .es2018) :
    (firstNewer source target program).isSome ↔
      (∃ n ∈ program.preorder, n.showsRest)
      ∨ ∃ n ∈ program.preorder, ∃ r ∈ ownRequirements source n,
          r.feature ≠ .objectRestSpread ∧ target < r.feature.edition := by
  have hrequires (n : Node) (hn : n ∈ program.preorder) :
      requires source .objectRestSpread n = n.showsRest :=
    requires_objectRestSpread (hprogram.of_mem hn)
  rw [isSome_firstNewer_iff]
  constructor
  · rintro ⟨n, hn, r, hr, hlt⟩
    by_cases hfeature : r.feature = .objectRestSpread
    · refine .inl ⟨n, hn, ?_⟩
      rw [← hrequires n hn]
      exact requires_iff.2 ⟨r, hr, hfeature⟩
    · exact .inr ⟨n, hn, r, hr, hfeature, hlt⟩
  · rintro (⟨n, hn, hshows⟩ | ⟨n, hn, r, hr, -, hlt⟩)
    · rw [← hrequires n hn] at hshows
      obtain ⟨r, hr, hfeature⟩ := requires_iff.1 hshows
      exact ⟨n, hn, r, hr, hfeature ▸ hold⟩
    · exact ⟨n, hn, r, hr, hlt⟩

/-- **Spreads and rests of objects are reported, but for rests inside of the targets of assignments.**
For a target before ES2018, a script is reported if it has an object literal with a spread, a pattern
that declares the rest of an object, or an assignment to such a pattern. Any other pattern that assigns
the rest of an object is part of what an assignment or a loop assigns to, and adds nothing: a script is
reported just when one of the former is there, or something that needs another feature is too new. What
is reported does not pass. -/
theorem object_rest_reported (text : String) {program : Node}
    (hparse : parse text.toList = .ok program) {target : Edition} (hold : target < .es2018) :
    (∀ n ∈ program.preorder, n.spreadsObject ∨ n.bindsRest ∨ n.assignsRest →
        (firstNewer text.toList target program).isSome)
      ∧ (∀ p ∈ program.preorder, p.takesRest → ∃ n ∈ program.preorder, n.AssignsTo p)
      ∧ ((firstNewer text.toList target program).isSome ↔
          (∃ n ∈ program.preorder, n.spreadsObject ∨ n.bindsRest ∨ n.assignsRest)
          ∨ ∃ n ∈ program.preorder, ∃ r ∈ ownRequirements text.toList n,
              r.feature ≠ .objectRestSpread ∧ target < r.feature.edition)
      ∧ (∀ v : Grammar, v.edition = target → (firstNewer text.toList target program).isSome →
          validate text v ≠ .pass)
      ∧ (earlyErrors program = [] → ∀ v : Grammar, v.edition = target →
          (validate text v = .pass ↔ firstNewer text.toList target program = none)) := by
  have hiff := isSome_firstNewer_iff_showsRest (faithful_of_parse hparse) hold
  simp only [showsRest, Bool.or_eq_true, or_assoc] at hiff
  refine ⟨fun n hn hshows => hiff.2 (.inl ⟨n, hn, hshows⟩), fun p hp htakes => ?_, hiff, ?_, ?_⟩
  · refine exists_assignsTo (whole_of_parse hparse) hp ?_
    rw [beq_iff_eq.1 (Bool.and_eq_true_iff.1 htakes).1]
    rfl
  · rintro v rfl
    exact Parser.script.validate_ne_pass hparse
  · rintro hearly v rfl
    exact Parser.script.validate_pass_iff hparse hearly

/-- The rest of an object that is assigned to is reported for ES2017. -/
theorem object_rest_reported_assignment :
    ∃ program, parse "({...a} = b)".toList = .ok program ∧ Edition.es2017 < .es2018
      ∧ (firstNewer "({...a} = b)".toList .es2017 program).isSome := by
  have hold : Edition.es2017 < .es2018 := by decide
  have hread : (parse "({...a} = b)".toList).toOption.any (fun program =>
      program.preorder.any assignsRest) := by decide +kernel
  obtain ⟨program, hparse, hassigns⟩ := exists_of_any_parse hread
  obtain ⟨n, hn, hassigns⟩ := List.any_eq_true.1 hassigns
  have hreported := (object_rest_reported "({...a} = b)" hparse hold).1
  exact ⟨program, hparse, hold, hreported n hn (.inr (.inr hassigns))⟩

/-- The rest of an object inside of an array that is assigned to is not reported, and the script
passes. -/
theorem nested_rest_not_reported :
    validate "[{...r}] = b" .v8 = .pass
      ∧ ¬ ∀ (text : String) (program : Node) (target : Edition), parse text.toList = .ok program →
          (∃ p ∈ program.preorder, p.spreadsObject ∨ p.bindsRest ∨ p.takesRest) →
            target < .es2018 → (firstNewer text.toList target program).isSome := by
  refine ⟨by decide +kernel, fun hall => ?_⟩
  have hread : (parse "[{...r}] = b".toList).toOption.any (fun program =>
      program.preorder.any takesRest
        && (firstNewer "[{...r}] = b".toList .es2017 program).isNone) := by decide +kernel
  obtain ⟨program, hparse, hread⟩ := exists_of_any_parse hread
  obtain ⟨htakes, hnone⟩ := Bool.and_eq_true_iff.1 hread
  obtain ⟨p, hp, htakes⟩ := List.any_eq_true.1 htakes
  have hsome := hall _ program .es2017 hparse ⟨p, hp, .inr (.inr htakes)⟩ (by decide)
  rw [Option.isNone_iff_eq_none.1 hnone] at hsome
  cases hsome

end EditionCheck
