import EditionCheck.Proofs.Reading
import EditionCheck.Proofs.Targets
import EditionCheck.Script.Binding

/-!
# Names and binding patterns leave assignment patterns in their places

`Rules.Sound` says that the productions that refer back give trees in order. If they do, so do the
productions for names, keys, patterns that declare names, and parameter lists.

* `operand_node`, `whole_node` — a node at the end of a production is in order if its children are;
* `whole_propertyKey`, `whole_bindingTarget`, `whole_parameters` — the productions.
-/

set_option autoImplicit false

namespace EditionCheck.Script

open EditionCheck.Text Reader Node

/-- The productions that refer back give trees in order. -/
structure Rules.Sound (g : Rules) : Prop where
  expression (s : Setting) : Yields (g.expression s) Whole
  assignment (s : Setting) : Yields (g.assignment s) Whole
  unary (s : Setting) : Yields (g.unary s) Whole
  binary (s : Setting) (level : Nat) : Yields (g.binary s level) Whole
  member (s : Setting) (calls : Bool) : Yields (g.member s calls) Whole
  bindingTarget (s : Setting) : Yields (g.bindingTarget s) Whole
  statement (s : Setting) : Yields (g.statement s) Whole
  listItem (s : Setting) : Yields (g.listItem s) Whole

/-! ## Nodes -/

section

variable {start : Nat} {kind : Kind} {children : List Node} {x : Reader Node}

theorem whole_node (hk : kind.isTargetPart = false) (hcs : AllWhole children) :
    Yields (node start kind children) Whole :=
  .node fun _ => hcs.whole hk

theorem operand_node (hk : kind.isOperand) (hcs : AllWhole children) :
    Yields (node start kind children) Operand :=
  .node fun _ => hcs.operand hk

theorem whole_of_operand (h : Yields x Operand) : Yields x Whole := h.mono fun _ hn => hn.whole

end

/-! ## Names -/

section

variable (s : Setting)

theorem yields_readVariable {P : Node → Prop} {kind : String → Kind}
    (h : ∀ name span, P (.mk (kind name) span [])) : Yields (readVariable s kind) P := by
  unfold readVariable
  refine .skip fun t => ?_
  split
  · exact .skip fun _ => .pure (h _ _)
  · exact .fail _

theorem whole_bindingName : Yields (readVariable s .bindingName) Whole :=
  yields_readVariable s fun _ _ => allWhole_nil.whole rfl

theorem whole_labelName : Yields (readVariable s .labelName) Whole :=
  yields_readVariable s fun _ _ => allWhole_nil.whole rfl

theorem operand_reference : Yields (readVariable s .reference) Operand :=
  yields_readVariable s fun _ _ => allWhole_nil.operand rfl

theorem whole_propertyName : Yields propertyName Whole := by
  unfold propertyName
  refine .skip fun t => ?_
  split
  · exact .skip fun _ => .pure (allWhole_nil.whole rfl)
  · exact .fail _

theorem whole_privateName : Yields privateName Whole := by
  unfold privateName
  refine .skip fun t => ?_
  split
  · exact .skip fun _ => .pure (allWhole_nil.whole rfl)
  · exact .fail _

theorem isOperand_of_literalKind? {l : Lexeme} {kind : Kind} (h : literalKind? l = some kind) :
    kind.isOperand := by
  unfold literalKind? at h
  split at h <;> cases h <;> rfl

end

section

variable {g : Rules} (hg : g.Sound) (s : Setting)
include hg

theorem whole_propertyKey : Yields (propertyKey g s) fun r => r.1.Whole := by
  unfold propertyKey
  refine .skip fun t => ?_
  split
  · refine .skip fun _ => (hg.assignment _).bind fun e he => ?_
    exact .skip fun _ => .pure he
  · split
    · next hliteral =>
      have hk := isOperand_of_literalKind? hliteral
      exact .skip fun _ => .pure (allWhole_nil.operand hk).whole
    · exact whole_propertyName.bind fun _ hn => .pure hn

/-! ## Binding patterns -/

theorem whole_withDefault {p : Node} (hp : p.Whole) : Yields (withDefault g s p) Whole := by
  unfold withDefault
  refine .skip fun hasDefault => ?_
  split
  · refine (hg.assignment _).bind fun value hvalue => ?_
    exact whole_node rfl (allWhole_two hp hvalue)
  · exact .pure hp

theorem whole_bindingElement : Yields (bindingElement g s) Whole :=
  (hg.bindingTarget s).bind fun _ hp => whole_withDefault hg s hp

omit hg in
theorem whole_restElement {target : Reader Node} (start : Nat) (close : Punctuator)
    (h : Yields target Whole) : Yields (restElement start close target) Whole := by
  unfold restElement
  refine h.bind fun t ht => ?_
  refine (whole_node rfl (allWhole_one ht)).bind fun n hn => .skip fun closes => ?_
  split
  · exact .pure hn
  · exact .fail _

theorem whole_arrayPatternElement : Yields (arrayPatternElement g s) Whole := by
  unfold arrayPatternElement
  refine .skip fun start => .skip fun isHole => ?_
  split
  · exact .pure (allWhole_nil.whole rfl)
  · refine .skip fun isRest => ?_
    split
    · exact whole_restElement _ _ (hg.bindingTarget s)
    · exact whole_bindingElement hg s

theorem whole_objectPatternProperty : Yields (objectPatternProperty g s) Whole := by
  unfold objectPatternProperty
  refine .skip fun t => .skip fun isRest => ?_
  split
  · exact whole_restElement _ _ (whole_bindingName s)
  · refine (whole_propertyKey hg s).bind fun r hkey => ?_
    obtain ⟨key, computed⟩ := r
    refine .skip fun hasValue => ?_
    split
    · refine (whole_bindingElement hg s).bind fun value hvalue => ?_
      exact whole_node rfl (allWhole_two hkey hvalue)
    · split
      · refine (whole_withDefault hg s (allWhole_nil.whole rfl)).bind fun value hvalue => ?_
        exact whole_node rfl (allWhole_two hkey hvalue)
      · exact .failAt _ _

theorem whole_bindingTarget : Yields (bindingTarget g s) Whole := by
  unfold bindingTarget
  refine .skip fun start => .skip fun isArray => ?_
  split
  · refine (Yields.commaList _ (whole_arrayPatternElement hg s)).bind fun r hitems => ?_
    exact whole_node rfl hitems
  · refine .skip fun isObject => ?_
    split
    · refine (Yields.commaList _ (whole_objectPatternProperty hg s)).bind fun r hitems => ?_
      exact whole_node rfl hitems
    · exact whole_bindingName s

theorem whole_parameter : Yields (parameter g s) Whole := by
  unfold parameter
  refine .skip fun start => .skip fun isRest => ?_
  split
  · exact whole_restElement _ _ (hg.bindingTarget s)
  · refine (whole_bindingElement hg s).bind fun p hp => ?_
    exact .pure ((allWhole_one hp).whole rfl)

theorem whole_parameters : Yields (parameters g s) Whole := by
  unfold parameters
  refine .skip fun start => .skip fun _ => ?_
  refine (Yields.commaList _ (whole_parameter hg s)).bind fun r hitems => ?_
  exact whole_node rfl hitems

end

end EditionCheck.Script
