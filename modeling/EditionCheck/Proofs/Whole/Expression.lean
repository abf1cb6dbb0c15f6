import EditionCheck.Proofs.Whole.Binding
import EditionCheck.Script.Expression

/-!
# Expressions leave assignment patterns in their places

The productions for expressions without operators, functions and classes give trees in order. What such
an expression is has no `=` for its operator, which is what makes it fit to be read again as a target.

* `operand_functionFrom`, `operand_classFrom` — functions and classes;
* `operand_primary`, `operand_member` — expressions, with the member accesses and calls behind them.
-/

set_option autoImplicit false

namespace EditionCheck.Script

open EditionCheck.Text Reader Node

variable {g : Rules} (hg : g.Sound) (s : Setting)
include hg

/-! ## Literals -/

theorem allWhole_templateParts (tagged : Bool) : Yields (templateParts g s tagged) AllWhole := by
  unfold templateParts
  refine .iterate AllWhole allWhole_nil fun substitutions hsubstitutions => .skip fun t => ?_
  split
  · refine .skip fun _ => .skip fun _ => ?_
    split
    · refine (hg.expression _).bind fun e he => .skip fun closes => ?_
      split
      · exact .skip fun _ => .skip fun _ => .pure (allWhole_cons.2 ⟨he, hsubstitutions⟩)
      · exact .skip fun _ => .pure (allWhole_cons.2 ⟨he, hsubstitutions⟩)
    · exact .pure hsubstitutions.reverse
  · exact .fail _

theorem operand_template (tagged : Bool) : Yields (template g s tagged) Operand := by
  unfold template
  exact .skip fun start => (allWhole_templateParts hg s tagged).bind fun ns hns => operand_node rfl hns

theorem whole_spreadOr {kind : Kind} (hk : kind.isTargetPart = false) :
    Yields (spreadOr g s kind) Whole := by
  unfold spreadOr
  refine .skip fun start => .skip fun isSpread => ?_
  split
  · refine (hg.assignment _).bind fun e he => ?_
    exact whole_node hk (allWhole_one he)
  · exact hg.assignment _

theorem whole_arrayElement : Yields (arrayElement g s) Whole := by
  unfold arrayElement
  refine .skip fun start => .skip fun isHole => ?_
  split
  · exact .pure (allWhole_nil.whole rfl)
  · exact whole_spreadOr hg s rfl

theorem operand_arrayLiteral : Yields (arrayLiteral g s) Operand := by
  unfold arrayLiteral
  refine .skip fun start => .skip fun _ => ?_
  refine (Yields.commaList _ (whole_arrayElement hg s)).bind fun r hitems => ?_
  exact operand_node rfl hitems

theorem allWhole_arguments : Yields (arguments g s) fun r => AllWhole r.1 := by
  unfold arguments
  exact .skip fun _ => .commaList _ (whole_spreadOr hg s rfl)

/-! ## Functions -/

theorem allWhole_bodyItems (atEnd : Token → Bool) : Yields (bodyItems g s atEnd) AllWhole := by
  unfold bodyItems
  refine .iterate (fun r => AllWhole r.1) allWhole_nil fun r hr => ?_
  obtain ⟨items, prologue⟩ := r
  refine .skip fun t => ?_
  split
  · exact .pure hr.reverse
  · refine (hg.listItem s).bind fun n hn => ?_
    split
    · -- a directive keeps the string that it is made from
      exact .pure (allWhole_cons.2 ⟨(hn.orderly.allWhole rfl rfl).whole rfl, hr⟩)
    · exact .pure (allWhole_cons.2 ⟨hn, hr⟩)

theorem whole_functionBody : Yields (functionBody g s) Whole := by
  unfold functionBody
  refine .skip fun start => .skip fun _ => (allWhole_bodyItems hg s _).bind fun items hitems => ?_
  exact .skip fun _ => whole_node rfl hitems

theorem whole_method (form : FunctionForm) (isAsync isGenerator : Bool) :
    Yields (method g form isAsync isGenerator) Whole := by
  unfold method
  refine .skip fun start => (whole_parameters hg _).bind fun ps hps => ?_
  refine (whole_functionBody hg _).bind fun body hbody => ?_
  exact whole_node rfl (allWhole_two hps hbody)

theorem operand_functionFrom (start : Nat) (form : FunctionForm) (isAsync nameless : Bool) :
    Yields (functionFrom g s start form isAsync nameless) Operand := by
  unfold functionFrom
  refine .skip fun _ => .skip fun isGenerator => ?_
  extract_lets inner rest
  have hrest (name : List Node) (hname : AllWhole name) : Yields (rest name) Operand := by
    refine (whole_parameters hg _).bind fun ps hps => ?_
    refine (whole_functionBody hg _).bind fun body hbody => ?_
    exact operand_node rfl (allWhole_append.2 ⟨hname, allWhole_two hps hbody⟩)
  refine .skip fun atParen => ?_
  split
  · exact hrest _ allWhole_nil
  · exact (whole_bindingName _).bind fun n hn => hrest _ (allWhole_one hn)

theorem operand_arrowFrom (start : Nat) (isAsync : Bool) {ps : Node} (hps : ps.Whole) :
    Yields (arrowFrom g s start isAsync ps) Operand := by
  unfold arrowFrom
  refine .skip fun _ => ?_
  extract_lets inner rest
  have hrest (body : Node) (hbody : body.Whole) : Yields (rest body) Operand :=
    operand_node rfl (allWhole_two hps hbody)
  refine .skip fun hasBraces => ?_
  split
  · exact (whole_functionBody hg _).bind fun body hbody => hrest _ hbody
  · exact (hg.assignment _).bind fun e he => hrest _ ((allWhole_one he).whole rfl)

omit hg in
theorem whole_arrowParameters (span : Span) (comma isAsync : Bool) {items : List Node}
    (hitems : AllWhole items) : Yields (arrowParameters span comma isAsync items) Whole := by
  unfold arrowParameters
  split
  · next ps hps =>
    split
    · exact .failAt _ _
    · exact .skip fun _ => .pure ((whole_of_toParameters? hitems hps).whole rfl)
  · exact .failAt _ _

/-! ## Objects -/

theorem whole_objectProperty : Yields (objectProperty g s) Whole := by
  unfold objectProperty
  refine .skip fun start => .skip fun isSpread => ?_
  split
  · refine (hg.assignment _).bind fun e he => ?_
    exact whole_node rfl (allWhole_one he)
  · refine .skip fun m => .skip fun t => (whole_propertyKey hg s).bind fun r hkey => ?_
    obtain ⟨key, computed⟩ := r
    refine .skip fun atParen => ?_
    split
    · refine (whole_method hg _ _ _).bind fun f hf => ?_
      exact whole_node rfl (allWhole_two hkey hf)
    · refine .skip fun hasValue => ?_
      split
      · refine (hg.assignment _).bind fun value hvalue => ?_
        exact whole_node rfl (allWhole_two hkey hvalue)
      · split
        · next name _ =>
          have hvalue : (Node.mk (.reference name) t.span []).Whole := allWhole_nil.whole rfl
          refine .skip fun hasInitial => ?_
          split
          · refine (hg.assignment _).bind fun initial hinitial => .skip fun _ => ?_
            exact whole_node rfl (allWhole_three hkey hvalue hinitial)
          · exact whole_node rfl (allWhole_two hkey hvalue)
        · exact .fail _

theorem operand_objectLiteral : Yields (objectLiteral g s) Operand := by
  unfold objectLiteral
  refine .skip fun start => .skip fun _ => ?_
  refine (Yields.commaList _ (whole_objectProperty hg s)).bind fun r hitems => ?_
  exact operand_node rfl hitems

/-! ## Parentheses -/

theorem whole_parenthesizedItem : Yields (parenthesizedItem g s) Whole := by
  unfold parenthesizedItem
  refine .skip fun start => .skip fun isRest => ?_
  split
  · exact whole_restElement _ _ (hg.bindingTarget s)
  · exact hg.assignment _

omit hg in
theorem whole_of_sequenceOf {es : List Node} {e : Node} (hes : AllWhole es)
    (he : sequenceOf es = some e) : e.Whole := by
  unfold sequenceOf at he
  split at he
  · cases he
  · cases he
    exact (allWhole_cons.1 hes).1
  · cases he
    exact hes.whole rfl

theorem operand_parenthesized (arrow : Bool) :
    Yields (parenthesized g s arrow) fun r => r.1.Operand := by
  unfold parenthesized
  refine .skip fun start => .skip fun _ => ?_
  refine (Yields.commaList _ (whole_parenthesizedItem hg s)).bind fun r hitems => ?_
  obtain ⟨items, comma⟩ := r
  refine .skip fun span => .skip fun t => ?_
  split
  · refine (whole_arrowParameters _ _ _ hitems).bind fun ps hps => ?_
    exact (operand_arrowFrom hg s _ _ hps).bind fun f hf => .pure hf
  · split
    · exact .fail _
    · split
      · next e he => exact .pure ((allWhole_one (whole_of_sequenceOf hitems he)).operand rfl)
      · exact .fail _

/-! ## Classes -/

theorem whole_classKey : Yields (classKey g s) fun r => r.1.Whole := by
  unfold classKey
  refine .skip fun t => ?_
  split
  · exact whole_privateName.bind fun n hn => .pure hn
  · exact whole_propertyKey hg s

theorem whole_classElement (derived : Bool) : Yields (classElement g s derived) Whole := by
  unfold classElement
  refine .skip fun t => ?_
  extract_lets start isStatic inner rest
  have hrest : Yields (rest ()) Whole := by
    refine .skip fun atBrace => ?_
    split
    · refine .skip fun _ => (Yields.itemsUntil _ (hg.listItem _)).bind fun items hitems => ?_
      exact whole_node rfl hitems
    · refine .skip fun m => ?_
      extract_lets plain
      refine (whole_classKey hg s).bind fun r hkey => ?_
      obtain ⟨key, computed⟩ := r
      refine .skip fun atParen => ?_
      extract_lets isMethod faults form finish
      refine .skip fun _ => ?_
      split
      · refine (whole_method hg _ _ _).bind fun f hf => ?_
        exact whole_node rfl (allWhole_two hkey hf)
      · refine .skip fun hasValue => ?_
        have hfinish (value : List Node) (hvalue : AllWhole value) :
            Yields (finish value) Whole :=
          .skip fun _ => whole_node rfl (allWhole_cons.2 ⟨hkey, hvalue⟩)
        split
        · refine (hg.assignment _).bind fun e he => ?_
          exact hfinish _ (allWhole_one ((allWhole_one he).whole rfl))
        · exact hfinish _ allWhole_nil
  split
  · exact .skip fun _ => hrest
  · exact hrest

theorem whole_classBody (derived : Bool) : Yields (classBody g s derived) Whole := by
  unfold classBody
  refine .skip fun start => .skip fun _ => ?_
  refine Yields.bind (P := AllWhole) (.iterate AllWhole allWhole_nil fun items hitems => ?_)
    fun items hitems => whole_node rfl hitems
  refine .skip fun closes => ?_
  split
  · exact .pure hitems.reverse
  · refine .skip fun isEmpty => ?_
    split
    · exact .pure hitems
    · exact (whole_classElement hg s derived).bind fun n hn => .pure (allWhole_cons.2 ⟨hn, hitems⟩)

theorem operand_classFrom (isDeclaration nameless : Bool) :
    Yields (classFrom g s isDeclaration nameless) Operand := by
  unfold classFrom
  refine .skip fun start => .skip fun _ => ?_
  extract_lets rest
  have hrest (name : List Node) (hname : AllWhole name) : Yields (rest name) Operand := by
    refine .skip fun hasParent => ?_
    extract_lets finish
    have hfinish (parent : List Node) (hparent : AllWhole parent) :
        Yields (finish parent) Operand := by
      refine (whole_classBody hg s _).bind fun body hbody => ?_
      exact operand_node rfl
        (allWhole_append.2 ⟨allWhole_append.2 ⟨hname, hparent⟩, allWhole_one hbody⟩)
    split
    · refine (hg.member s true).bind fun e he => ?_
      exact hfinish _ (allWhole_one ((allWhole_one he).whole rfl))
    · exact hfinish _ allWhole_nil
  have hnamed : Yields (readVariable s .bindingName >>= fun n => rest [n]) Operand :=
    (whole_bindingName s).bind fun n hn => hrest _ (allWhole_one hn)
  refine .skip fun atBrace => .skip fun atExtends => ?_
  split
  · exact hrest _ allWhole_nil
  · exact hnamed

/-! ## Members and calls -/

theorem operand_importExpression (calls : Bool) : Yields (importExpression g s calls) Operand := by
  unfold importExpression
  refine .skip fun start => .skip fun _ => .skip fun atDot => ?_
  split
  · exact .skip fun _ => operand_node rfl allWhole_nil
  · split
    · refine .skip fun _ => (Yields.commaList _ (hg.assignment _)).bind fun r hitems => ?_
      dsimp only
      split
      · exact .fail _
      · exact operand_node rfl hitems
    · exact .fail _

omit hg in
theorem operand_superExpression (calls : Bool) : Yields (superExpression calls) Operand := by
  unfold superExpression
  refine .skip fun t => .skip fun atDot => .skip fun atBracket => .skip fun atParen => ?_
  split
  · exact .pure (allWhole_nil.operand rfl)
  · exact .fail _

omit hg in
theorem operand_memberTail_finish {e : Node} (he : e.Operand) (start : Nat) (chained : Bool) :
    Yields (memberTail.finish start e chained) Operand := by
  unfold memberTail.finish
  split
  · exact operand_node rfl (allWhole_one he.whole)
  · exact .pure he

theorem operand_memberTail (calls : Bool) (start : Nat) {first : Node} (hfirst : first.Operand) :
    Yields (memberTail g s calls start first) Operand := by
  unfold memberTail
  refine .iterate (fun r => r.1.Operand) hfirst fun r hr => ?_
  obtain ⟨e, chained⟩ := r
  extract_lets link
  have hlink (start : Nat) : Yields (link start e) Operand := by
    refine .skip fun t => ?_
    split
    · refine whole_privateName.bind fun name hname => ?_
      exact operand_node rfl (allWhole_two hr.whole hname)
    · refine whole_propertyName.bind fun name hname => ?_
      exact operand_node rfl (allWhole_two hr.whole hname)
  -- every link but the last leaves an operand for the next one
  have hnext {x : Reader Node} (hx : Yields x Operand) (flag : Bool) :
      Yields (do return .inl (← x, flag) : Reader ((Node × Bool) ⊕ Node))
        (Sum.elim (fun r => r.1.Operand) Operand) :=
    hx.bind fun n hn => .pure hn
  have hend {x : Reader Node} (hx : Yields x Operand) :
      Yields (do return .inr (← x) : Reader ((Node × Bool) ⊕ Node))
        (Sum.elim (fun r => r.1.Operand) Operand) :=
    hx.bind fun n hn => .pure hn
  have hcall (comma : Bool) {items : List Node} (hitems : AllWhole items) :
      Yields (node start (.call comma) (e :: items)) Operand :=
    operand_node rfl (allWhole_cons.2 ⟨hr.whole, hitems⟩)
  have hindex {i : Node} (hi : i.Whole) : Yields (node start .index [e, i]) Operand :=
    operand_node rfl (allWhole_two hr.whole hi)
  refine .skip fun t => ?_
  split
  · exact .skip fun _ => hnext (hlink _) _
  · refine .skip fun _ => (hg.expression _).bind fun i hi => ?_
    exact .skip fun _ => hnext (hindex hi) _
  · split
    · exact .fail _
    · refine (operand_template hg s true).bind fun quasi hquasi => ?_
      exact hnext (operand_node rfl (allWhole_two hr.whole hquasi.whole)) _
  · split
    · exact (allWhole_arguments hg s).bind fun r hitems => hnext (hcall _ hitems) _
    · exact hend (operand_memberTail_finish hr _ _)
  · split
    · refine .skip fun _ => .skip fun atParen => ?_
      split
      · exact (allWhole_arguments hg s).bind fun r hitems => hnext (hcall _ hitems) _
      · refine .skip fun atBracket => ?_
        split
        · refine (hg.expression _).bind fun i hi => ?_
          exact .skip fun _ => hnext (hindex hi) _
        · exact hnext (hlink _) _
    · exact .fail _
  · exact hend (operand_memberTail_finish hr _ _)

theorem operand_newExpression : Yields (newExpression g s) Operand := by
  unfold newExpression
  refine .skip fun start => .skip fun _ => .skip fun atDot => ?_
  split
  · exact .skip fun _ => operand_node rfl allWhole_nil
  · refine (hg.member s false).bind fun callee hcallee => .skip fun atParen => ?_
    split
    · refine (allWhole_arguments hg s).bind fun r hitems => ?_
      exact operand_node rfl (allWhole_cons.2 ⟨hcallee, hitems⟩)
    · exact operand_node rfl (allWhole_one hcallee)

omit hg in
theorem isOperand_of_wordLiteral? {word : String} {kind : Kind} (h : wordLiteral? word = some kind) :
    kind.isOperand := by
  unfold wordLiteral? at h
  repeat' split at h
  all_goals cases h
  all_goals rfl

omit hg in
theorem operand_regExp (t : Token) : Yields (primary.regExp t) Operand := by
  unfold primary.regExp
  refine .skip fun _ => .skip fun t => ?_
  split
  · exact .skip fun _ => .pure (allWhole_nil.operand rfl)
  · exact .fail _

theorem operand_primary (calls : Bool) : Yields (primary g s calls) Operand := by
  unfold primary
  refine .skip fun t => ?_
  split
  · refine .ite (operand_reference s) ?_
    refine .ite (operand_functionFrom hg s _ _ _ _) ?_
    refine .ite (operand_classFrom hg s _ _) ?_
    refine .ite (operand_newExpression hg s) ?_
    refine .ite (operand_superExpression _) ?_
    refine .ite (operand_importExpression hg s _) ?_
    refine .ite (.skip fun _ => operand_functionFrom hg s _ _ _ _) ?_
    split
    · next hword =>
      have hk := isOperand_of_wordLiteral? hword
      exact .skip fun _ => .pure (allWhole_nil.operand hk)
    · exact operand_reference s
  · exact operand_template hg s _
  · exact (operand_parenthesized hg s _).bind fun r hr => .pure hr
  · exact operand_arrayLiteral hg s
  · exact operand_objectLiteral hg s
  · exact operand_regExp _
  · exact operand_regExp _
  · split
    · next hliteral =>
      have hk := isOperand_of_literalKind? hliteral
      exact .skip fun _ => .pure (allWhole_nil.operand hk)
    · exact .fail _

theorem operand_member (calls : Bool) : Yields (member g s calls) Operand := by
  unfold member
  exact (operand_primary hg s calls).bind fun e he => operand_memberTail hg s calls _ he

end EditionCheck.Script
