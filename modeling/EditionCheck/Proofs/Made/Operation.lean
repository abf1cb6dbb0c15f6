import EditionCheck.Proofs.Made.Expression
import EditionCheck.Script.Operation

/-!
# Operators and assignments are made from their tokens

The productions for operators, assignments and arrow functions make trees from their tokens. Most of
them go on behind an operand and are given its tree.

* `made_binary`, `made_conditionalTail` — operators that do not assign;
* `made_assignmentTail`, `made_singleArrow`, `made_asyncCall` — what is read again behind `=` and `=>`;
* `made_assignment`, `made_expression` — all expressions.
-/

set_option autoImplicit false

namespace EditionCheck.Script

open EditionCheck.Text Reader Node

variable {text : List Char} {g : Rules} {p p₀ q : Place} {ns : List Node} {e n : Node}

/-! ## Operator tokens -/

section

variable {t : Token} (s : Setting)

theorem isPassed_of_unaryOperator? {op : UnaryOperator} (h : unaryOperator? t = some op) :
    t.isPassed = true := by
  unfold unaryOperator? at h
  split at h
  · next hlexeme => exact isPassed_of_isPunctuator (isPunctuator_of_lexeme hlexeme)
  · next hlexeme => exact isPassed_of_isWord (isWord_of_lexeme hlexeme)
  · cases h

theorem isPassed_of_binaryOperator? {r : Kind × Nat} (h : binaryOperator? s t = some r) :
    t.isPassed = true := by
  unfold binaryOperator? at h
  split at h
  · next hlexeme => exact isPassed_of_isPunctuator (isPunctuator_of_lexeme hlexeme)
  · next hlexeme => exact isPassed_of_isWord (isWord_of_lexeme hlexeme)
  · cases h

/-- The node of an operator has no shape of its own, and is no rest. -/
theorem fits_of_binaryOperator? {kind : Kind} {level : Nat}
    (h : binaryOperator? s t = some (kind, level)) (span : Span) :
    (Node.mk kind span ns).Fits text ∧ kind ≠ .restElement := by
  unfold binaryOperator? at h
  split at h
  · unfold binaryPunctuator? at h
    split at h <;> cases h <;> exact ⟨trivial, by simp⟩
  · split at h
    · cases h
      exact ⟨trivial, by simp⟩
    · split at h <;> cases h
      exact ⟨trivial, by simp⟩
  · cases h

theorem isPassed_of_step (h : (t.isPunctuator .increment || t.isPunctuator .decrement) = true) :
    t.isPassed = true := by
  rcases Bool.or_eq_true_iff.1 h with h | h <;> exact isPassed_of_isPunctuator h

end

/-! ## Operands -/

theorem made_updated (h : Begun text p₀ [e] p) :
    After (updated p₀.token.span.start e) p (Made text p₀) := by
  unfold updated
  split
  · next t ht =>
    have he := (allFaithful_cons.1 h.faithful).1
    exact made_node (h.recast (.simpleTarget he ht)) trivial nofun
  · exact .failAt _ _

theorem made_postfixOf (h : Made text p₀ e p) : After (postfixOf e) p (Made text p₀) := by
  unfold postfixOf
  refine .token (.ite (fun hstep => ?_) fun _ => .pure h)
  have hpassed := isPassed_of_step (Bool.and_eq_true_iff.1 hstep).1
  rw [h.start]
  exact .advance (made_updated (h.row.skip hpassed))

variable (hg : g.Makes text) (s : Setting)
include hg

theorem made_unary (hp : p.token.StandsIn text) : After (unary g s) p (Made text p) := by
  have hrow := Row.nil hp
  unfold unary
  refine .token (.ite (fun hstep => ?_) fun _ => .ite (fun hawait => ?_) fun _ => ?_)
  · have hrow := hrow.skip (isPassed_of_step hstep)
    exact .advance ((hg.unary s hrow.next).bind fun e q he => made_updated (hrow.add he))
  · have hrow := hrow.word (Bool.and_eq_true_iff.1 hawait).2
    exact .advance ((hg.unary s hrow.next).bind fun e q he => made_node (hrow.add he) trivial nofun)
  · split
    · next op hop =>
      have hrow := hrow.skip (isPassed_of_unaryOperator? hop)
      exact .advance ((hg.unary s hrow.next).bind fun e q he => made_node (hrow.add he) trivial nofun)
    · exact (made_member hg s true hp).bind fun e q he => made_postfixOf he

theorem made_binaryTail (level : Nat) (h : Made text p₀ e p) :
    After (binaryTail g s level e) p (Made text p₀) := by
  unfold binaryTail
  refine .iterate (fun e q => Made text p₀ e q) h fun e q he => .token ?_
  split
  · next kind l hop =>
    refine .ite (fun _ => ?_) fun _ => .pure he
    have hrow := he.row.skip (isPassed_of_binaryOperator? s hop)
    refine .advance ((hg.binary s _ hrow.next).bind fun right r hright => ?_)
    obtain ⟨hfits, hplain⟩ := fits_of_binaryOperator? s hop _
    rw [he.start]
    exact (made_node (hrow.add hright) hfits hplain).bind fun n r hn => .pure hn
  · exact .pure he

theorem made_privateTest (level : Nat) (hp : p.token.StandsIn text) :
    After (privateTest g s level) p (Made text p) := by
  unfold privateTest
  refine .here ((made_privateName hp).bind fun name q hname => ?_)
  refine .ite (fun _ => .expectWord fun hword => ?_) fun _ => .fail _
  have hrow := hname.row.word hword
  exact (hg.binary s _ hrow.next).bind fun right r hright => made_node (hrow.add hright) trivial nofun

theorem made_binary (level : Nat) (hp : p.token.StandsIn text) :
    After (binary g s level) p (Made text p) := by
  unfold binary
  refine .token ?_
  split
  · exact (made_privateTest hg s level hp).bind fun e q he => made_binaryTail hg s level he
  · exact (made_unary hg s hp).bind fun e q he => made_binaryTail hg s level he

/-! ## Conditions and assignments -/

theorem made_conditionalTail (h : Made text p₀ e p) :
    After (conditionalTail g s e) p (Made text p₀) := by
  unfold conditionalTail
  refine .ifAccept (fun hquestion => ?_) fun _ => .pure h
  have htest := h.row.punctuator hquestion
  refine (hg.assignment _ htest.next).bind fun yes q hyes => .expect fun hcolon => ?_
  have hyes := (htest.add hyes).punctuator hcolon
  refine (hg.assignment s hyes.next).bind fun no r hno => ?_
  rw [h.start]
  exact made_node (hyes.add hno) trivial nofun

/-- The left side of an assignment is read again as its target. -/
theorem made_assignmentTail (h : Made text p₀ e p) :
    After (assignmentTail g s e) p (Made text p₀) := by
  unfold assignmentTail
  refine .token ?_
  split
  · next c hc =>
    split
    · next op hop =>
      split
      · next target htarget =>
        have he := (allFaithful_cons.1 h.row.faithful).1
        have hrecast : Recast text [e] [target] := by
          split at htarget
          · exact recast_of_toTarget? he htarget
          · exact .simpleTarget he htarget
        have hrow := (h.row.recast hrecast).punctuator (isPunctuator_of_lexeme hc)
        refine .takeUp (.advance ((hg.assignment s hrow.next).bind fun value q hvalue => ?_))
        rw [h.start]
        exact made_node (hrow.add hvalue) trivial nofun
      · exact .failAt _ _
    · exact .pure h
  · exact .pure h

theorem made_operationFrom (h : Made text p₀ e p) :
    After (operationFrom g s e) p (Made text p₀) := by
  unfold operationFrom
  rw [h.start]
  refine (made_memberTail hg s true h).bind fun e q he => (made_postfixOf he).bind fun e q he => ?_
  refine (made_binaryTail hg s 0 he).bind fun e q he => ?_
  exact (made_conditionalTail hg s he).bind fun e q he => made_assignmentTail hg s he

theorem made_yieldFrom (hp : p.token.StandsIn text) (hword : p.token.isWord "yield" = true) :
    After (yieldFrom g s) p (Made text p) := by
  have hrow := (Row.nil hp).word hword
  unfold yieldFrom
  refine .advance (.token (.ite (fun hstar => ?_) fun _ => .ite (fun _ => ?_) fun _ => ?_))
  · have hrow := hrow.punctuator (Bool.and_eq_true_iff.1 hstar).1
    exact .advance ((hg.assignment s hrow.next).bind fun e q he =>
      made_node (hrow.add he) trivial nofun)
  · exact (hg.assignment s hrow.next).bind fun e q he => made_node (hrow.add he) trivial nofun
  · exact made_node hrow trivial nofun

/-- The items behind `async` are the parameters of an arrow function or the arguments of a call. -/
theorem made_asyncCall (hp : p.token.StandsIn text) (hword : p.token.isWord "async" = true) :
    After (asyncCall g s) p (Made text p) := by
  have hrow := (Row.nil hp).word hword
  unfold asyncCall
  refine .advance ?_
  extract_lets start callee
  refine .here ((listed_arguments hg s hrow.next).bind fun r q ⟨hopen, hitems⟩ => ?_)
  obtain ⟨items, comma⟩ := r
  refine .token (.ite (fun _ => .spanFrom ?_) fun _ => ?_)
  · refine (row_arrowParameters _ hrow.next hopen hitems).bind fun ps r ⟨hps, hr⟩ => ?_
    subst hr
    exact made_arrowFrom hg s _ fun _ => hrow.join hps
  · have hcallee : Begun text p [callee] p.behind := by
      refine (Row.nil hp).leaf .plain rfl ?_
      rw [lexeme_of_isWord hword]
      exact beq_self_eq_true _
    have hcall : After (node start (.call comma) (callee :: items)) q (Made text p) := by
      refine made_node ((hcallee.punctuator hopen).join hitems.row) (hitems.closed ?_) nofun
      exact Nat.le_trans hcallee.ordered.le hrow.next.start_le_stop
    exact hcall.bind fun call r hcall => made_operationFrom hg s hcall

omit hg in
theorem behind_readVariable {kind : String → Kind} :
    After (readVariable s kind) p fun _ q => q = p.behind := by
  unfold readVariable
  refine .token ?_
  split
  · exact .advance (.pure rfl)
  · exact .fail _

/-- The only parameter of an arrow function has no comma behind it, because the arrow is there. -/
theorem made_singleArrow (isAsync : Bool) (h : Row text p₀ [] p) :
    After (singleArrow g s p₀.token.span.start isAsync) p (Made text p₀) := by
  unfold singleArrow
  refine ((made_bindingName _ h.next).and (behind_readVariable _)).bind ?_
  rintro n q ⟨hn, rfl⟩
  refine made_arrowFrom hg s _ fun harrow => ?_
  have hq := follows_behind h.next
  have hstop : n.span.stop = p.behind.lastStop := by rw [hn.span]
  have hlexeme := lexeme_of_isPunctuator harrow
  rw [hq.token_eq, ← hstop] at hlexeme
  have hclosed : Closed text n.span.stop n.span.stop := by
    refine ⟨hstop ▸ hq.standsIn, ?_, fun hcomma => ?_⟩
    · rw [hlexeme]
      exact Lexeme.noConfusion
    · cases hlexeme.symm.trans (lexeme_of_isPunctuator hcomma)
  have hparameter : Made text p (.mk .parameter n.span [n]) p.behind := hn.around trivial nofun
  refine h.join (hparameter.row.nest hn.span ⟨fun l hl => ?_, fun l hl hkind => ?_⟩)
  · cases hl
    exact ⟨⟨Nat.le_of_lt hn.stretch.lt, hclosed⟩, fun hlt => absurd hlt (Nat.lt_irrefl _)⟩
  · cases hl
    cases hkind

/-! ## Expressions -/

theorem made_assignment (hp : p.token.StandsIn text) : After (assignment g s) p (Made text p) := by
  unfold assignment
  refine .token ?_
  extract_lets start
  refine .ite (fun hyield => ?_) fun _ => .ite (fun _ => ?_) fun _ => ?_
  · exact made_yieldFrom hg s hp (Bool.and_eq_true_iff.1 hyield).2
  · refine (made_parenthesized hg s true hp).bind fun r q he => ?_
    exact .ite (fun _ => .pure he) fun _ => made_operationFrom hg s he
  refine .ite (fun _ => made_singleArrow hg s _ (.nil hp)) fun _ => ?_
  refine .ite (fun hasync => made_asyncCall hg s hp ?_) fun _ => ?_
  · exact (Bool.and_eq_true_iff.1 (Bool.and_eq_true_iff.1 hasync).1).1
  refine .ite (fun hasync => ?_) fun _ => ?_
  · have hasync : p.token.isWord "async" :=
      (Bool.and_eq_true_iff.1 (Bool.and_eq_true_iff.1 (Bool.and_eq_true_iff.1 hasync).1).1).1
    exact .advance (made_singleArrow hg s _ ((Row.nil hp).word hasync).toRow)
  · refine (made_binary hg s 0 hp).bind fun e q he => ?_
    exact (made_conditionalTail hg s he).bind fun e q he => made_assignmentTail hg s he

omit hg in
/-- Expressions with commas between them have the span from the first one to the last one. -/
theorem made_of_sequenceOf {first last : Node} (h : Begun text p (first :: ns) q)
    (hfirst : first.span.start = p.token.span.start) (hplain : first.kind ≠ .restElement)
    (hlast : (first :: ns).getLast? = some last) (hstop : last.span.stop = q.lastStop)
    (he : sequenceOf (first :: ns) = some e) : Made text p e q := by
  have hspan (f l : Node) (hf : (first :: ns).head? = some f) (hl : (first :: ns).getLast? = some l) :
      Stretch text (f.span.through l.span) := by
    cases hf
    cases hl.symm.trans hlast
    rw [Span.through, hfirst, hstop]
    exact h.stretch
  refine ⟨⟨row_of_sequenceOf h hspan he, ?_⟩, ?_⟩
  · cases ns with
    | nil =>
      cases he
      cases (Option.some.inj hlast : e = last)
      rw [← hfirst, ← hstop]
    | cons m ns =>
      cases he
      rw [span_mk, hlast, Span.through, hfirst, Option.getD_some, hstop]
  · cases ns with
    | nil =>
      cases he
      exact hplain
    | cons m ns =>
      cases he
      simp

theorem made_expression (hp : p.token.StandsIn text) : After (expression g s) p (Made text p) := by
  unfold expression
  refine (made_assignment hg s hp).bind fun first q hfirst => ?_
  have hstop {n : Node} {q r : Place} (hn : Made text q n r) : n.span.stop = r.lastStop := by
    rw [hn.span]
  refine .bind (C := fun rest q => Begun text p (first :: rest) q
      ∧ ∃ l, (first :: rest).getLast? = some l ∧ l.span.stop = q.lastStop)
    (.iterate (fun es q => Begun text p (first :: es.reverse) q
      ∧ ∃ l, (first :: es.reverse).getLast? = some l ∧ l.span.stop = q.lastStop)
      ⟨hfirst.row, first, rfl, hstop hfirst⟩ ?_) ?_
  · rintro es q ⟨hrow, hlast⟩
    refine .ifAccept (fun hcomma => ?_) fun _ => .pure ⟨hrow, hlast⟩
    have hrow := hrow.punctuator hcomma
    refine (hg.assignment s hrow.next).bind fun e r he => .pure ?_
    show Begun text p (first :: (e :: es).reverse) r ∧ _
    rw [List.reverse_cons, ← List.cons_append]
    exact ⟨hrow.add he, e, List.getLast?_concat, hstop he⟩
  · rintro rest q ⟨hrow, l, hl, hl'⟩
    refine .pure ?_
    cases he : sequenceOf (first :: rest) with
    | none => cases rest <;> cases he
    | some e => exact made_of_sequenceOf hrow hfirst.start hfirst.plain hl hl' he

end EditionCheck.Script
