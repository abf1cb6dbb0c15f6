import EditionCheck.Proofs.Raised
import EditionCheck.Proofs.SourceOrder
import EditionCheck.Proofs.Versions

/-!
# Module syntax

A script has no import and export declarations and no `import.meta`. The grammar takes them, the rules on
early errors do not, and the walk for newer syntax knows them as features.

* `Kind.moduleFeature?` — the nodes that are module syntax, with their feature;
* `moduleErrors_sublist` — each of them is a breach of its own, at any depth;
* `raised_of_moduleFeature?` — the walk reports such a node, or something that it met before;
* `module_syntax_malformed` — so a text with module syntax has errors under every version, and no text is
  rejected for these features.
-/

set_option autoImplicit false

namespace EditionCheck.Script

open EditionCheck.Text Node

/-- The feature of a node that is module syntax. -/
def Kind.moduleFeature? : Kind → Option Feature
  | importDeclaration => some .moduleSyntax
  | exportDeclaration => some .moduleSyntax
  | importMeta => some .importMeta
  | _ => none

/-- The nodes of a tree that are module syntax. -/
def Node.moduleParts (n : Node) : List Node := n.preorder.filter (·.kind.moduleFeature?.isSome)

/-- The breach that a node is. -/
def Node.moduleError (n : Node) : EarlyError := ⟨.moduleSyntax, n.span⟩

variable {n : Node} {f : Feature}

/-! ## Early errors -/

/-- Such a node breaks one rule itself, whatever its surroundings are. -/
theorem ownErrors_of_moduleFeature? (c : Surroundings) (h : n.kind.moduleFeature? = some f) :
    ownErrors c n = [n.moduleError] := by
  obtain ⟨kind, span, children⟩ := n
  cases kind with
  | importDeclaration | exportDeclaration | importMeta => rfl
  | _ => cases h

theorem moduleParts_mk (kind : Kind) (span : Span) (children : List Node) :
    (mk kind span children).moduleParts
      = [mk kind span children].filter (·.kind.moduleFeature?.isSome)
        ++ children.flatMap Node.moduleParts := by
  rw [moduleParts, preorder_eq, ← List.singleton_append, List.filter_append, List.filter_flatMap]
  rfl

/-- A node itself is among its own breaches, if it is module syntax. -/
theorem ownModuleErrors_sublist (c : Surroundings) (n : Node) :
    (([n].filter (·.kind.moduleFeature?.isSome)).map Node.moduleError).Sublist (ownErrors c n) := by
  cases h : n.kind.moduleFeature? with
  | none => simp [h]
  | some f => simp [h, ownErrors_of_moduleFeature? c h]

mutual

/-- **Each node that is module syntax is a breach**, in whatever surroundings the tree stands. -/
theorem moduleErrors_sublist_errorsIn (c : Surroundings) :
    (n : Node) → (n.moduleParts.map Node.moduleError).Sublist (errorsIn c n)
  | .mk kind span children => by
    rw [moduleParts_mk, List.map_append, errorsIn]
    exact (ownModuleErrors_sublist c _).append (moduleErrors_sublist_errorsInAll _ children)

theorem moduleErrors_sublist_errorsInAll (c : Surroundings) :
    (ns : List Node) →
      ((ns.flatMap Node.moduleParts).map Node.moduleError).Sublist (errorsInAll c ns)
  | [] => .slnil
  | n :: ns => by
    rw [List.flatMap_cons, List.map_append, errorsInAll]
    exact (moduleErrors_sublist_errorsIn c n).append (moduleErrors_sublist_errorsInAll c ns)

end

theorem moduleErrors_sublist (program : Node) :
    (program.moduleParts.map Node.moduleError).Sublist (earlyErrors program) :=
  (moduleErrors_sublist_errorsIn {} program).trans (List.sublist_append_left _ _)

theorem length_moduleParts_le (program : Node) :
    program.moduleParts.length ≤ (earlyErrors program).length := by
  have hle := (moduleErrors_sublist program).length_le
  rwa [List.length_map] at hle

theorem mem_moduleParts {program : Node} (hn : n ∈ program.preorder)
    (h : n.kind.moduleFeature? = some f) : n ∈ program.moduleParts :=
  List.mem_filter.2 ⟨hn, Option.isSome_iff_exists.2 ⟨f, h⟩⟩

end EditionCheck.Script

namespace EditionCheck.Scan

open EditionCheck.Text EditionCheck.Script Node

variable {source : List Char} {program n : Node} {f : Feature} {r : Requirement} {target : Edition}

/-! ## Features -/

theorem edition_of_moduleFeature? (h : n.kind.moduleFeature? = some f) :
    f = .moduleSyntax ∧ f.edition = .es2015 ∨ f = .importMeta ∧ f.edition = .es2020 := by
  obtain ⟨kind, span, children⟩ := n
  cases kind with
  | importDeclaration | exportDeclaration =>
    cases h
    exact .inl ⟨rfl, rfl⟩
  | importMeta =>
    cases h
    exact .inr ⟨rfl, rfl⟩
  | _ => cases h

theorem ownRequirements_of_moduleFeature? (h : n.kind.moduleFeature? = some f) :
    ownRequirements source n = [⟨f, n.span⟩] := by
  obtain ⟨kind, span, children⟩ := n
  cases kind with
  | importDeclaration | exportDeclaration | importMeta =>
    cases h
    rfl
  | _ => cases h

/-- These features are required by such nodes only. -/
theorem moduleFeature?_of_mem (hr : r ∈ ownRequirements source n)
    (hf : r.feature = .moduleSyntax ∨ r.feature = .importMeta) :
    n.kind.moduleFeature? = some r.feature := by
  have hlisted := mem_features_of_mem hr
  obtain ⟨kind, span, children⟩ := n
  cases kind with
  | importDeclaration | exportDeclaration | importMeta => rw [List.mem_singleton.1 hlisted]; rfl
  | _ => rcases hf with hf | hf <;> rw [hf] at hlisted <;> simp [Kind.features] at hlisted

/-- The walk reports such a node, or something newer that it met before. -/
theorem raised_of_moduleFeature? {front back : List Node} (hf : n.kind.moduleFeature? = some f)
    (hsplit : program.preorder = front ++ n :: back) (hold : target < f.edition) :
    ∃ r, firstNewer source target program = some r
      ∧ (r = ⟨f, n.span⟩ ∨ ∃ m ∈ front, r ∈ ownRequirements source m) := by
  rw [firstNewer_eq_find?, requirements, hsplit, List.flatMap_append, List.flatMap_cons,
    ownRequirements_of_moduleFeature? hf, List.find?_append]
  cases hfront : (front.flatMap (ownRequirements source)).find? _ with
  | none =>
    refine ⟨⟨f, n.span⟩, ?_, .inl rfl⟩
    rw [Option.none_or, List.singleton_append]
    exact List.find?_cons_of_pos (decide_eq_true hold)
  | some r => exact ⟨r, rfl, .inr (List.mem_flatMap.1 (List.mem_of_find?_eq_some hfront))⟩

end EditionCheck.Scan

namespace EditionCheck

open EditionCheck.Scan EditionCheck.Script Node

/-! ## Verdicts -/

/-- **Module syntax is an error of every script.** No version rejects a text for the feature of module
syntax or of `import.meta`. In a text that the grammar takes, each of their uses, at any depth, is an
early error of its own; if there is one, the text has the same errors under every version, whatever else
is too new for the version; and the walk for newer syntax would report that use, or something in front of
it, for every target that lacks the feature. -/
theorem module_syntax_malformed (text : String) :
    (∀ (v : Grammar) (d : DatedFeature), validate text v = .feature d →
        d.feature ≠ .moduleSyntax ∧ d.feature ≠ .importMeta)
      ∧ ∀ program, parse text.toList = .ok program →
          (program.moduleParts.map Node.moduleError).Sublist (earlyErrors program)
          ∧ (program.moduleParts ≠ [] → ∃ errors, 1 ≤ errors ∧ program.moduleParts.length ≤ errors
              ∧ ∀ v : Grammar, validate text v = .malformed errors)
          ∧ ∀ front n back f, program.preorder = front ++ n :: back → n.kind.moduleFeature? = some f →
              (f = .moduleSyntax ∧ f.edition = .es2015 ∨ f = .importMeta ∧ f.edition = .es2020)
              ∧ n ∈ program.moduleParts
              ∧ ∀ target : Edition, target < f.edition →
                  ∃ r, firstNewer text.toList target program = some r
                    ∧ (r = ⟨f, n.span⟩ ∨ ∃ m ∈ front, r ∈ ownRequirements text.toList m) := by
  constructor
  · intro v d hv
    rw [← not_or]
    intro hfeature
    rcases Parser.script.malformed_or_script text with ⟨errors, -, herrors⟩ | ⟨program, hparse, h⟩
    · cases (herrors v).symm.trans hv
    · have hnone : earlyErrors program = [] := h
      obtain ⟨r, hreport, rfl⟩ := (Parser.script.validate_feature_iff hparse hnone).1 hv
      -- the node that raises it is an early error, and the script has none
      obtain ⟨n, hn, hr⟩ := List.mem_flatMap.1 (newer_of_firstNewer hreport).2
      have hpart := mem_moduleParts hn (moduleFeature?_of_mem hr hfeature)
      have hle := length_moduleParts_le program
      rw [hnone] at hle
      exact absurd (List.length_pos_of_mem hpart) (Nat.not_lt.2 hle)
  · intro program hparse
    refine ⟨moduleErrors_sublist program, fun hparts => ?_, ?_⟩
    · have hle := length_moduleParts_le program
      have hpos : 1 ≤ (earlyErrors program).length :=
        Nat.le_trans (List.length_pos_iff.2 hparts) hle
      refine ⟨_, hpos, hle, ?_⟩
      exact Parser.script.validate_of_breaches hparse (List.length_pos_iff.1 hpos)
    · intro front n back f hsplit hf
      refine ⟨edition_of_moduleFeature? hf, ?_, fun target hold => raised_of_moduleFeature? hf hsplit hold⟩
      refine mem_moduleParts ?_ hf
      rw [hsplit]
      exact List.mem_append_right _ List.mem_cons_self

/-- In an arrow function in a template, both newer than the first versions, `import.meta` is the error. -/
theorem module_syntax_malformed_template :
    ∃ program, parse "`$\x7bf(() => import.meta)\x7d`".toList = .ok program
      ∧ (∃ errors, 1 ≤ errors
          ∧ ∀ v : Grammar, validate "`$\x7bf(() => import.meta)\x7d`" v = .malformed errors)
      ∧ ∃ r, firstNewer "`$\x7bf(() => import.meta)\x7d`".toList .es2019 program = some r := by
  have hread : (parse "`$\x7bf(() => import.meta)\x7d`".toList).toOption.any (fun program =>
      program.preorder.any fun n => n.kind == .importMeta) := by decide +kernel
  obtain ⟨program, hparse, hread⟩ := exists_of_any_parse hread
  obtain ⟨n, hn, hkind⟩ := List.any_eq_true.1 hread
  have hf : n.kind.moduleFeature? = some .importMeta := by rw [beq_iff_eq.1 hkind]; rfl
  obtain ⟨front, back, hsplit⟩ := List.append_of_mem hn
  obtain ⟨-, hparsed⟩ := module_syntax_malformed "`$\x7bf(() => import.meta)\x7d`"
  obtain ⟨-, hmalformed, hraised⟩ := hparsed program hparse
  obtain ⟨errors, hpos, -, herrors⟩ := hmalformed (List.ne_nil_of_mem (mem_moduleParts hn hf))
  obtain ⟨-, -, hraised⟩ := hraised front n back .importMeta hsplit hf
  obtain ⟨r, hreport, -⟩ := hraised .es2019 (by decide)
  exact ⟨program, hparse, ⟨errors, hpos, herrors⟩, r, hreport⟩

end EditionCheck
