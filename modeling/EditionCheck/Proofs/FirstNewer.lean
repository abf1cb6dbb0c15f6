import EditionCheck.Scan.Search

/-!
# The walk finds the first newer requirement

The walk of `Scan/Search.lean` carries a search from node to node and raises features as it goes; the
list of `Scan/Requirement.lean` says what a script requires without any search. This file proves that
the walk is the list:

* `Search.enter_eq` — entering a node considers the requirements of that node, in order;
* `Search.walk_eq` — walking a tree considers the requirements of the tree, in order;
* `Search.found_foldl_consider` — considering a list keeps its first requirement that is newer than the
  target;
* `firstNewer_eq_find?` — so the answer for a target is the first newer element of one list, which is
  the same for every target;
* `walk_refines_requirements` — all of it together, with the consequence that no construct is missed
  because of where it stands or of what was seen before it.
-/

set_option autoImplicit false

namespace EditionCheck.Scan

open EditionCheck.Text EditionCheck.Script

variable {source : List Char} {target : Edition} {program : Node}

namespace Search

/-! ## What is considered, and what is kept -/

@[simp] theorem target_consider (s : Search) (r : Requirement) : (s.consider r).target = s.target := by
  unfold consider
  split <;> rfl

theorem found_consider (s : Search) (r : Requirement) :
    (s.consider r).found = s.found.or (if s.target < r.feature.edition then some r else none) := by
  unfold consider
  cases hf : s.found with
  | some first => simp [hf]
  | none => by_cases hr : s.target < r.feature.edition <;> simp [hf, hr]

/-- **A search keeps the first newer requirement of a list.** What was found before stays. -/
theorem found_foldl_consider (rs : List Requirement) (s : Search) :
    (rs.foldl consider s).found
      = s.found.or (rs.find? fun r => decide (s.target < r.feature.edition)) := by
  induction rs generalizing s with
  | nil => simp
  | cons r rs ih =>
    rw [List.foldl_cons, ih, found_consider, target_consider, Option.or_assoc, List.find?_cons]
    by_cases hr : s.target < r.feature.edition
    · simp [hr]
    · simp [hr]

/-! ## Entering a node -/

theorem foldl_consider_requireAt (span : Span) (features : List Feature) (s : Search) :
    (requireAt span features).foldl consider s = features.foldl (fun s f => s.raise f span) s := by
  rw [requireAt, List.foldl_map]
  rfl

theorem raiseIf_eq (condition : Bool) (feature : Feature) (span : Span) (s : Search) :
    s.raiseIf condition feature span
      = (if condition then [⟨feature, span⟩] else []).foldl consider s := by
  cases condition <;> rfl

theorem enterNumber_eq (raw : List Char) (span : Span) (s : Search) :
    s.enterNumber raw span = (requireAt span (numberFeatures raw)).foldl consider s := by
  rw [foldl_consider_requireAt, numberFeatures, List.foldl_append, enterNumber, raiseIf, raiseIf]
  cases isBinaryOrOctal raw <;> cases raw.contains '_' <;> rfl

theorem enterName_eq (raw : List Char) (span : Span) (s : Search) :
    s.enterName raw span = (requireAt span (escapeFeatures raw)).foldl consider s := by
  rw [foldl_consider_requireAt, escapeFeatures, enterName, raiseIf]
  cases spellsCodePoint raw <;> rfl

theorem raiseAny_eq (feature : Option Feature) (span : Span) (s : Search) :
    s.raiseAny feature span = feature.toList.foldl (fun s f => s.raise f span) s := by
  cases feature <;> rfl

theorem foldl_raiseAny (flags : List Char) (span : Span) (s : Search) :
    flags.foldl (fun s flag => s.raiseAny (flagFeature flag) span) s
      = (flags.filterMap flagFeature).foldl (fun s f => s.raise f span) s := by
  induction flags generalizing s with
  | nil => rfl
  | cons flag flags ih =>
    rw [List.foldl_cons, ih, List.filterMap_cons]
    cases flagFeature flag <;> rfl

theorem enterRegExp_eq (raw : List Char) (span : Span) (s : Search) :
    s.enterRegExp raw span = (requireAt span (regExpFeatures raw)).foldl consider s := by
  rw [foldl_consider_requireAt, regExpFeatures, enterRegExp]
  obtain ⟨body, flags⟩ := splitAtLastSlash raw
  show flags.foldl (fun s flag => s.raiseAny (flagFeature flag) span)
    (s.raiseAny (bodyFeature false (dropSlash body)) span) = _
  rw [List.foldl_append, foldl_raiseAny, raiseAny_eq]

theorem enterListEnd_eq (feature : Feature) (last : Option Node) (close : Span) (s : Search) :
    s.enterListEnd source feature last close
      = (commaBehind source feature (last.map Node.span) close).foldl consider s := by
  cases last with
  | none => rfl
  | some last =>
    simp only [enterListEnd, commaBehind, Option.map_some]
    by_cases h : close.stop ≤ last.span.stop
    · have h' : ¬ last.span.stop < close.stop := by omega
      simp [h, h']
    · have h' : last.span.stop < close.stop := by omega
      simp [h, h', raiseIf_eq]

theorem enterTarget_eq (span : Span) (t : Option Node) (s : Search) :
    s.enterTarget span t = (targetRequirements span t).foldl consider s := by
  rcases t with _ | ⟨kind, inner, parts⟩
  · rfl
  · cases kind with
    | objectTarget =>
      rw [enterTarget, raiseIf_eq]
      rfl
    | _ => rfl

theorem foldl_spreads (ps : List Node) (s : Search) :
    ps.foldl (fun s property =>
        s.raiseIf (property.kind == .spreadProperty) .objectRestSpread property.span) s
      = ((ps.filter (·.kind == .spreadProperty)).map
          fun p => (⟨.objectRestSpread, p.span⟩ : Requirement)).foldl consider s := by
  induction ps generalizing s with
  | nil => rfl
  | cons p ps ih =>
    rw [List.foldl_cons, ih, List.filter_cons]
    cases p.kind == .spreadProperty <;> rfl

/-- **Entering a node considers its own requirements**, in the order of the list. -/
theorem enter_eq (n : Node) (s : Search) :
    s.enter source n = (ownRequirements source n).foldl consider s := by
  obtain ⟨kind, span, children⟩ := n
  cases kind with
  | program => exact raiseIf_eq _ _ _ _
  | reference => exact enterName_eq _ _ _
  | bindingName => exact enterName_eq _ _ _
  | propertyName => exact enterName_eq _ _ _
  | stringLiteral => exact enterName_eq _ _ _
  | numericLiteral => exact enterNumber_eq _ _ _
  | regExpLiteral => exact enterRegExp_eq _ _ _
  | objectLiteral =>
    simp only [enter, ownRequirements, Node.kind_mk, Node.children_mk, Node.span_mk,
      List.foldl_append, enterListEnd_eq, foldl_spreads]
  | objectProperty form shorthand computed =>
    simp only [enter, ownRequirements, Node.kind_mk, Node.span_mk, foldl_consider_requireAt,
      propertyFeatures, List.foldl_append, raiseIf]
    cases form == .getter || form == .setter <;>
      cases form == .method || shorthand || computed <;> rfl
  | function form isAsync isGenerator => cases isAsync <;> cases isGenerator <;> rfl
  | arrowFunction isAsync => cases isAsync <;> rfl
  | call => exact enterListEnd_eq _ _ _ _
  | newCall => exact enterListEnd_eq _ _ _ _
  | parameters =>
    simp only [enter, ownRequirements, Node.kind_mk, Node.children_mk, Node.span_mk, enterListEnd_eq]
    by_cases h : endsWith .restElement children <;> simp [h]
  | binary op => cases op <;> rfl
  | logical op => cases op <;> rfl
  | assignment op =>
    simp only [enter, ownRequirements, Node.kind_mk, Node.children_mk, Node.span_mk,
      List.foldl_append, enterTarget_eq]
    cases op <;> rfl
  | objectPattern =>
    simp only [enter, ownRequirements, Node.kind_mk, Node.children_mk, Node.span_mk, List.foldl_cons]
    cases children.getLast? with
    | none => rfl
    | some rest =>
      simp only [raiseIf, Option.filter_some]
      cases rest.kind == .restElement <;> rfl
  | variableDeclaration word => cases word <;> rfl
  | forOf isAwait => cases isAwait <;> rfl
  | catchClause hasParameter => cases hasParameter <;> rfl
  | _ => rfl

/-! ## Walking a tree -/

theorem requirements_mk (kind : Kind) (span : Span) (children : List Node) :
    requirements source (.mk kind span children)
      = ownRequirements source (.mk kind span children) ++ children.flatMap (requirements source) := by
  rw [requirements, Node.preorder_eq, List.flatMap_cons, List.flatMap_assoc]
  rfl

mutual

/-- **A walk considers the requirements of the tree**, in their order. -/
theorem walk_eq (s : Search) :
    (n : Node) → s.walk source n = (requirements source n).foldl consider s
  | .mk kind span children => by
    rw [walk, walkAll_eq, enter_eq, requirements_mk, List.foldl_append]

theorem walkAll_eq (s : Search) :
    (ns : List Node) → s.walkAll source ns = (ns.flatMap (requirements source)).foldl consider s
  | [] => rfl
  | n :: ns => by
    rw [walkAll, walk_eq, walkAll_eq, List.flatMap_cons, List.foldl_append]

end

end Search

/-! ## The first newer requirement -/

/-- **The answer for a target is the first newer element of one list**, which does not depend on the
target. -/
theorem firstNewer_eq_find? :
    firstNewer source target program
      = (requirements source program).find? fun r => decide (target < r.feature.edition) := by
  rw [firstNewer, Search.walk_eq, Search.found_foldl_consider]
  rfl

theorem firstNewer_eq_none_iff :
    firstNewer source target program = none
      ↔ ∀ r ∈ requirements source program, ¬ target < r.feature.edition := by
  simp [firstNewer_eq_find?]

theorem isSome_firstNewer_iff :
    (firstNewer source target program).isSome
      ↔ ∃ n ∈ program.preorder, ∃ r ∈ ownRequirements source n, target < r.feature.edition := by
  simp only [firstNewer_eq_find?, List.find?_isSome, requirements, List.mem_flatMap, decide_eq_true_eq]
  exact ⟨fun ⟨r, ⟨n, hn, hr⟩, hlt⟩ => ⟨n, hn, r, hr, hlt⟩,
    fun ⟨n, hn, r, hr, hlt⟩ => ⟨r, ⟨n, hn, hr⟩, hlt⟩⟩

/-- A requirement that is found is newer than the target and is one of the list. -/
theorem newer_of_firstNewer {r : Requirement} (h : firstNewer source target program = some r) :
    target < r.feature.edition ∧ r ∈ requirements source program := by
  rw [firstNewer_eq_find?] at h
  exact ⟨by simpa using List.find?_some h, List.mem_of_find?_eq_some h⟩

/-- **The walk refines the list of requirements.** Entering a node, in whatever search, considers the
requirements of the node in their order; the requirements of a tree are those of its root and then
those of its children, whatever the target; and the answer for a target is the first of them that is
newer, so that a newer construct is found wherever in the tree it stands. -/
theorem walk_refines_requirements (source : List Char) (program : Node) :
    (∀ (n : Node) (s : Search),
        s.enter source n = (ownRequirements source n).foldl Search.consider s)
      ∧ (∀ (kind : Kind) (span : Span) (children : List Node),
          requirements source (.mk kind span children)
            = ownRequirements source (.mk kind span children)
              ++ children.flatMap (requirements source))
      ∧ (∀ target : Edition,
          firstNewer source target program
            = (requirements source program).find? fun r => decide (target < r.feature.edition))
      ∧ (∀ target : Edition,
          firstNewer source target program = none
            ↔ ∀ r ∈ requirements source program, ¬ target < r.feature.edition)
      ∧ ∀ (target : Edition), ∀ n ∈ program.preorder, ∀ r ∈ ownRequirements source n,
          target < r.feature.edition → (firstNewer source target program).isSome := by
  refine ⟨Search.enter_eq, Search.requirements_mk, fun target => firstNewer_eq_find?,
    fun target => firstNewer_eq_none_iff, ?_⟩
  intro target n hn r hr hlt
  exact isSome_firstNewer_iff.2 ⟨n, hn, r, hr, hlt⟩

end EditionCheck.Scan
