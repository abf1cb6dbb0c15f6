import EditionCheck.Proofs.Whole.Expression
import EditionCheck.Script.Operation

/-!
# Operators and assignments leave assignment patterns in their places

The productions for operators give trees in order, and up to the condition they give operands. So what
stands in front of an assignment operator is an operand, and the target that it is read again as is a
pattern or no part of one.

* `operand_binary`, `operand_conditionalTail` — operators that do not assign;
* `whole_assignmentTail` — an assignment has its pattern, if it has one, as its first child;
* `whole_assignment`, `whole_expression` — all expressions.
-/

set_option autoImplicit false

namespace EditionCheck.Script

open EditionCheck.Text Reader Node

variable {g : Rules} (hg : g.Sound) (s : Setting)

/-! ## Operands -/

theorem operand_updated (start : Nat) {e : Node} (he : e.Whole) :
    Yields (updated start e) Operand := by
  unfold updated
  split
  · next ht => exact operand_node rfl (allWhole_one (whole_of_toSimpleTarget? he ht))
  · exact .failAt _ _

theorem operand_postfixOf {e : Node} (he : e.Operand) : Yields (postfixOf e) Operand := by
  unfold postfixOf
  refine .skip fun t => ?_
  split
  · exact .skip fun _ => operand_updated _ he.whole
  · exact .pure he

theorem isOperand_of_binaryOperator? {t : Token} {kind : Kind} {level : Nat}
    (h : binaryOperator? s t = some (kind, level)) : kind.isOperand := by
  unfold binaryOperator? at h
  split at h
  · unfold binaryPunctuator? at h
    split at h <;> cases h <;> rfl
  · split at h
    · cases h
      rfl
    · split at h <;> cases h
      rfl
  · cases h

include hg

theorem operand_unary : Yields (unary g s) Operand := by
  unfold unary
  refine .skip fun t => ?_
  extract_lets start
  split
  · exact .skip fun _ => (hg.unary s).bind fun e he => operand_updated _ he
  · split
    · exact .skip fun _ => (hg.unary s).bind fun e he => operand_node rfl (allWhole_one he)
    · split
      · exact .skip fun _ => (hg.unary s).bind fun e he => operand_node rfl (allWhole_one he)
      · exact (operand_member hg s true).bind fun e he => operand_postfixOf he

theorem operand_binaryTail (level : Nat) {first : Node} (hfirst : first.Operand) :
    Yields (binaryTail g s level first) Operand := by
  unfold binaryTail
  refine .iterate Operand hfirst fun e he => .skip fun t => ?_
  split
  · next hop =>
    split
    · refine .skip fun _ => (hg.binary s _).bind fun right hright => ?_
      have hk := isOperand_of_binaryOperator? s hop
      exact (operand_node hk (allWhole_two he.whole hright)).bind fun n hn => .pure hn
    · exact .pure he
  · exact .pure he

theorem operand_privateTest (level : Nat) : Yields (privateTest g s level) Operand := by
  unfold privateTest
  refine .skip fun start => whole_privateName.bind fun name hname => ?_
  split
  · refine .skip fun _ => (hg.binary s _).bind fun right hright => ?_
    exact operand_node rfl (allWhole_two hname hright)
  · exact .fail _

theorem operand_binary (level : Nat) : Yields (binary g s level) Operand := by
  unfold binary
  refine .skip fun t => ?_
  split
  · exact (operand_privateTest hg s level).bind fun e he => operand_binaryTail hg s level he
  · exact (operand_unary hg s).bind fun e he => operand_binaryTail hg s level he

/-! ## Conditions and assignments -/

theorem operand_conditionalTail {test : Node} (htest : test.Operand) :
    Yields (conditionalTail g s test) Operand := by
  unfold conditionalTail
  refine .skip fun hasBranches => ?_
  split
  · refine (hg.assignment _).bind fun yes hyes => .skip fun _ => ?_
    refine (hg.assignment s).bind fun no hno => ?_
    exact operand_node rfl (allWhole_three htest.whole hyes hno)
  · exact .pure htest

/-- An assignment by `=` has the target that its left side is read as; any other operator takes a
variable or property, which is no part of a pattern. -/
theorem whole_assignmentTail {left : Node} (hleft : left.Operand) :
    Yields (assignmentTail g s left) Whole := by
  have hne : left.kind ≠ .assignment .assign := by
    intro h
    have hk := hleft.kind
    rw [h] at hk
    cases hk
  unfold assignmentTail
  refine .skip fun t => ?_
  split
  · split
    · next op _ =>
      split
      · next target htarget =>
        refine .skip fun _ => .skip fun _ => (hg.assignment s).bind fun value hvalue => ?_
        refine .node fun span => ?_
        split at htarget
        · next hassign =>
          rw [beq_iff_eq.1 hassign]
          exact (target_of_toTarget? hleft.whole hne htarget).whole (allWhole_one hvalue) rfl
        · next hassign =>
          have htarget' := whole_of_toSimpleTarget? hleft.whole htarget
          exact (allWhole_two htarget' hvalue).whole rfl
      · exact .failAt _ _
    · exact .pure hleft.whole
  · exact .pure hleft.whole

theorem whole_operationFrom {first : Node} (hfirst : first.Operand) :
    Yields (operationFrom g s first) Whole := by
  unfold operationFrom
  refine (operand_memberTail hg s true _ hfirst).bind fun e he => ?_
  refine (operand_postfixOf he).bind fun e he => (operand_binaryTail hg s 0 he).bind fun e he => ?_
  exact (operand_conditionalTail hg s he).bind fun e he => whole_assignmentTail hg s he

theorem whole_yieldFrom : Yields (yieldFrom g s) Whole := by
  unfold yieldFrom
  refine .skip fun t => ?_
  extract_lets start
  refine .skip fun next => ?_
  split
  · exact .skip fun _ => (hg.assignment s).bind fun e he => whole_node rfl (allWhole_one he)
  · split
    · exact (hg.assignment s).bind fun e he => whole_node rfl (allWhole_one he)
    · exact whole_node rfl allWhole_nil

theorem whole_asyncCall : Yields (asyncCall g s) Whole := by
  unfold asyncCall
  refine .skip fun t => ?_
  extract_lets start callee
  refine .skip fun paren => (allWhole_arguments hg s).bind fun r hitems => ?_
  obtain ⟨items, comma⟩ := r
  refine .skip fun next => ?_
  split
  · refine .skip fun span => (whole_arrowParameters _ _ _ hitems).bind fun ps hps => ?_
    exact whole_of_operand (operand_arrowFrom hg s _ _ hps)
  · have hcallee : callee.Whole := allWhole_nil.whole rfl
    refine (operand_node rfl (allWhole_cons.2 ⟨hcallee, hitems⟩)).bind fun call hcall => ?_
    exact whole_operationFrom hg s hcall

theorem whole_singleArrow (start : Nat) (isAsync : Bool) :
    Yields (singleArrow g s start isAsync) Whole := by
  unfold singleArrow
  refine (whole_bindingName _).bind fun p hp => ?_
  have hparameter : (Node.mk .parameter p.span [p]).Whole := (allWhole_one hp).whole rfl
  exact whole_of_operand (operand_arrowFrom hg s _ _ ((allWhole_one hparameter).whole rfl))

theorem whole_assignment : Yields (assignment g s) Whole := by
  unfold assignment
  refine .skip fun t => ?_
  extract_lets start
  split
  · exact whole_yieldFrom hg s
  · split
    · refine (operand_parenthesized hg s true).bind fun r he => ?_
      obtain ⟨e, done⟩ := r
      dsimp only
      split
      · exact .pure he.whole
      · exact whole_operationFrom hg s he
    · split
      · exact whole_singleArrow hg s _ _
      · split
        · exact whole_asyncCall hg s
        · split
          · exact .skip fun _ => whole_singleArrow hg s _ _
          · refine (operand_binary hg s 0).bind fun e he => ?_
            exact (operand_conditionalTail hg s he).bind fun e he => whole_assignmentTail hg s he

theorem whole_expression : Yields (expression g s) Whole := by
  unfold expression
  refine (whole_assignment hg s).bind fun first hfirst => ?_
  refine Yields.bind (P := AllWhole) (.iterate AllWhole allWhole_nil fun es hes => ?_) fun rest hrest => ?_
  · refine .skip fun more => ?_
    split
    · exact (hg.assignment s).bind fun e he => .pure (allWhole_cons.2 ⟨he, hes⟩)
    · exact .pure hes.reverse
  · have hall : AllWhole (first :: rest) := allWhole_cons.2 ⟨hfirst, hrest⟩
    cases he : sequenceOf (first :: rest) with
    | none => exact .pure hfirst
    | some e => exact .pure (whole_of_sequenceOf hall he)

end EditionCheck.Script
