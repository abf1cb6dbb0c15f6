import EditionCheck.Scan.Requirement

/-!
# Which features a kind of node can require

`Kind.features` lists for each kind of node the features that it can require itself. What is said about
one feature then needs a look at the few kinds that list it.

* `requires` — whether a node requires a feature itself;
* `mem_features_of_mem`, `requires_eq_false` — a node requires features of its kind only;
* `mem_commaBehind` — the requirement of a comma behind the last item of a list.
-/

set_option autoImplicit false

namespace EditionCheck.Script

/-- The features that a node of a kind can require. -/
def Kind.features : Kind → List Feature
  | program => [.hashbang]
  | reference _ => [.codePointEscape]
  | bindingName _ => [.codePointEscape]
  | propertyName _ => [.codePointEscape]
  | stringLiteral _ _ => [.codePointEscape]
  | privateName _ => [.privateName]
  | numericLiteral _ => [.binaryOctalLiteral, .numericSeparator]
  | bigIntLiteral => [.bigInt]
  | regExpLiteral => [.regExpLookbehind, .regExpNamedGroup, .regExpPropertyEscape, .stickyUnicodeRegExp,
      .dotAllRegExp, .regExpIndices, .regExpUnicodeSets]
  | templateLiteral => [.templateLiteral]
  | superKeyword => [.superKeyword]
  | spreadElement => [.spread]
  | spreadProperty => [.spread]
  | objectLiteral _ => [.objectRestSpread, .objectTrailingComma]
  | objectProperty _ _ _ => [.accessorProperty, .propertyShorthand]
  | function _ _ _ => [.asyncGenerator, .asyncFunction, .generator]
  | arrowFunction _ => [.arrowFunction, .asyncFunction]
  | classNode _ => [.classSyntax]
  | call _ => [.functionTrailingComma]
  | newCall _ => [.functionTrailingComma]
  | parameters _ => [.functionTrailingComma]
  | taggedTemplate => [.taggedTemplate]
  | importCall => [.dynamicImport]
  | importMeta => [.importMeta]
  | newTarget => [.newTarget]
  | chain => [.optionalChaining]
  | binary _ => [.exponentiation]
  | logical _ => [.nullishCoalescing]
  | assignment _ => [.exponentiation, .logicalAssignment, .destructuring, .objectRestSpread]
  | yieldExpression => [.generator]
  | awaitExpression => [.awaitExpression]
  | objectPattern => [.destructuring, .objectRestSpread]
  | arrayPattern => [.destructuring]
  | defaultedPattern => [.defaultParameter]
  | restElement => [.rest]
  | fieldDefinition _ _ => [.classFields]
  | staticBlock => [.staticBlock]
  | variableDeclaration _ => [.blockBinding]
  | forOf _ => [.forAwait, .forOf]
  | catchClause _ => [.optionalCatchBinding]
  | importDeclaration => [.moduleSyntax]
  | exportDeclaration => [.moduleSyntax]
  | _ => []

end EditionCheck.Script

namespace EditionCheck.Scan

open EditionCheck.Text EditionCheck.Script

variable {source raw : List Char} {r : Requirement} {f feature : Feature} {span close : Span}
  {features : List Feature}

/-! ## Features of literals -/

theorem mem_requireAt : r ∈ requireAt span features ↔ r.feature ∈ features ∧ r.span = span := by
  simp only [requireAt, List.mem_map]
  constructor
  · rintro ⟨f, hf, rfl⟩
    exact ⟨hf, rfl⟩
  · rintro ⟨hf, rfl⟩
    exact ⟨_, hf, rfl⟩

theorem mem_escapeFeatures : f ∈ escapeFeatures raw ↔ f = .codePointEscape ∧ spellsCodePoint raw := by
  unfold escapeFeatures
  split
  · next h => simp [h]
  · next h => simp [h]

theorem mem_numberFeatures (h : f ∈ numberFeatures raw) :
    f = .binaryOctalLiteral ∨ f = .numericSeparator := by
  rcases List.mem_append.1 h with h | h
  · split at h
    · exact .inl (List.mem_singleton.1 h)
    · cases h
  · split at h
    · exact .inr (List.mem_singleton.1 h)
    · cases h

theorem mem_features_of_angleGroup (r : List Char) : angleGroup r ∈ Kind.regExpLiteral.features := by
  unfold angleGroup
  split <;> decide

theorem mem_features_of_bodyFeature {inClass : Bool} (h : bodyFeature inClass raw = some f) :
    f ∈ Kind.regExpLiteral.features := by
  fun_induction bodyFeature inClass raw with
  | case1 => cases h
  | case2 =>
    cases h
    decide
  | case3 =>
    cases h
    decide
  | case5 =>
    cases h
    exact mem_features_of_angleGroup _
  | _ =>
    rename_i ih
    exact ih h

theorem mem_features_of_flagFeature {c : Char} (h : flagFeature c = some f) :
    f ∈ Kind.regExpLiteral.features := by
  unfold flagFeature at h
  split at h <;> cases h <;> decide

theorem mem_features_of_regExpFeatures (h : f ∈ regExpFeatures raw) :
    f ∈ Kind.regExpLiteral.features := by
  unfold regExpFeatures at h
  dsimp only at h
  rcases List.mem_append.1 h with h | h
  · exact mem_features_of_bodyFeature (Option.mem_toList.1 h)
  · obtain ⟨c, -, hc⟩ := List.mem_filterMap.1 h
    exact mem_features_of_flagFeature hc

theorem mem_features_of_propertyFeatures {form form' : PropertyForm} {shorthand computed a b : Bool}
    (h : f ∈ propertyFeatures form shorthand computed) :
    f ∈ (Kind.objectProperty form' a b).features := by
  unfold propertyFeatures at h
  rcases List.mem_append.1 h with h | h
  · split at h
    · cases List.mem_singleton.1 h
      exact List.mem_cons_self
    · cases h
  · split at h
    · cases List.mem_singleton.1 h
      exact List.mem_cons_of_mem _ List.mem_cons_self
    · cases h

/-! ## Requirements of one node -/

/-- A comma behind the last item of a list is seen where only blanks precede it. -/
theorem mem_commaBehind {last : Option Span} :
    r ∈ commaBehind source feature last close ↔
      ∃ l, last = some l ∧ l.stop < close.stop
        ∧ beginsWithComma (Span.slice source ⟨l.stop, close.stop⟩)
        ∧ r = ⟨feature, l.stop, close.stop⟩ := by
  cases last with
  | none => simp [commaBehind]
  | some l =>
    have hmem : r ∈ commaBehind source feature (some l) close ↔
        (l.stop < close.stop ∧ beginsWithComma (Span.slice source ⟨l.stop, close.stop⟩))
          ∧ r = ⟨feature, l.stop, close.stop⟩ := by
      simp only [commaBehind]
      split
      · next h => simp_all
      · next h => simp_all
    rw [hmem, and_assoc]
    simp

theorem feature_of_mem_commaBehind {last : Option Span}
    (h : r ∈ commaBehind source feature last close) : r.feature = feature := by
  obtain ⟨l, -, -, -, rfl⟩ := mem_commaBehind.1 h
  rfl

theorem mem_features_of_targetRequirements {target : Option Node} {op : AssignmentOperator}
    (h : r ∈ targetRequirements span target) : r.feature ∈ (Kind.assignment op).features := by
  unfold targetRequirements at h
  split at h
  · simp [List.mem_singleton.1 h, Kind.features]
  · split at h
    · rcases List.mem_cons.1 h with rfl | h
      · simp [Kind.features]
      · simp [List.mem_singleton.1 h, Kind.features]
    · simp [List.mem_singleton.1 h, Kind.features]
  · cases h

/-- **A node requires features of its kind only.** -/
theorem mem_features_of_mem {n : Node} (h : r ∈ ownRequirements source n) :
    r.feature ∈ n.kind.features := by
  obtain ⟨kind, s, cs⟩ := n
  cases kind with
  | program =>
    simp only [ownRequirements, Node.kind_mk] at h
    split at h
    · cases List.mem_singleton.1 h
      exact List.mem_cons_self
    · cases h
  | reference | bindingName | propertyName | stringLiteral =>
    exact List.mem_singleton.2 (mem_escapeFeatures.1 (mem_requireAt.1 h).1).1
  | numericLiteral => simpa [Kind.features] using mem_numberFeatures (mem_requireAt.1 h).1
  | regExpLiteral => exact mem_features_of_regExpFeatures (mem_requireAt.1 h).1
  | objectLiteral =>
    rcases List.mem_append.1 h with h | h
    · obtain ⟨c, -, rfl⟩ := List.mem_map.1 h
      exact List.mem_cons_self
    · rw [feature_of_mem_commaBehind h]
      exact List.mem_cons_of_mem _ List.mem_cons_self
  | objectProperty => exact mem_features_of_propertyFeatures (mem_requireAt.1 h).1
  | function form isAsync isGenerator =>
    have h := (mem_requireAt.1 h).1
    cases isAsync <;> cases isGenerator <;> simp_all [functionFeatures, Kind.features]
  | arrowFunction isAsync =>
    have h := (mem_requireAt.1 h).1
    cases isAsync <;> simp_all [Kind.features]
  | call | newCall => exact List.mem_singleton.2 (feature_of_mem_commaBehind h)
  | parameters =>
    simp only [ownRequirements, Node.kind_mk] at h
    split at h
    · cases h
    · exact List.mem_singleton.2 (feature_of_mem_commaBehind h)
  | binary op =>
    cases op with
    | power => exact List.mem_singleton.2 (by rw [List.mem_singleton.1 h])
    | _ => cases h
  | logical op =>
    cases op with
    | coalesce => exact List.mem_singleton.2 (by rw [List.mem_singleton.1 h])
    | _ => cases h
  | assignment op =>
    rcases List.mem_append.1 h with h | h
    · have h := (mem_requireAt.1 h).1
      cases op <;> simp_all [assignmentFeatures, Kind.features]
    · exact mem_features_of_targetRequirements h
  | objectPattern =>
    rcases List.mem_cons.1 h with rfl | h
    · exact List.mem_cons_self
    · obtain ⟨c, -, rfl⟩ := List.mem_map.1 h
      exact List.mem_cons_of_mem _ List.mem_cons_self
  | variableDeclaration word =>
    cases word with
    | var => cases h
    | _ => exact List.mem_singleton.2 (by rw [List.mem_singleton.1 h])
  | forOf isAwait =>
    cases List.mem_singleton.1 h
    cases isAwait <;> simp [Kind.features]
  | catchClause hasParameter =>
    cases hasParameter with
    | false => exact List.mem_singleton.2 (by rw [List.mem_singleton.1 h])
    | true => cases h
  | _ =>
    first
    | exact absurd h List.not_mem_nil
    | exact List.mem_singleton.2 (by rw [List.mem_singleton.1 h])

/-- Whether a node itself requires a feature. -/
def requires (source : List Char) (f : Feature) (n : Node) : Bool :=
  (ownRequirements source n).any (·.feature == f)

theorem requires_iff {n : Node} :
    requires source f n ↔ ∃ r ∈ ownRequirements source n, r.feature = f := by
  simp [requires]

theorem requires_eq_false {n : Node} (h : f ∉ n.kind.features) : requires source f n = false := by
  refine Bool.eq_false_iff.2 fun hf => ?_
  obtain ⟨r, hr, rfl⟩ := requires_iff.1 hf
  exact h (mem_features_of_mem hr)

theorem any_commaBehind_ne {last : Option Span} (h : feature ≠ f) :
    (commaBehind source feature last close).any (·.feature == f) = false := by
  refine List.any_eq_false.2 fun r hr => ?_
  rw [feature_of_mem_commaBehind hr]
  simpa using h

end EditionCheck.Scan
