import EditionCheck.Proofs.Made.Binding
import EditionCheck.Script.Expression

/-!
# Expressions are made from their tokens

The productions for expressions without operators, functions and classes make trees from their tokens.
A production that goes on behind something that has been read already is given the row or the tree of
that part.

* `made_functionFrom`, `made_arrowFrom`, `made_classFrom` — functions and classes;
* `made_objectLiteral`, `listed_arguments` — lists that a comma may end;
* `made_primary`, `made_member` — expressions, with the member accesses and calls behind them.
-/

set_option autoImplicit false

namespace EditionCheck.Script

open EditionCheck.Text Reader Node

variable {text : List Char} {g : Rules} {p p₀ q : Place} {ns : List Node} {n : Node}
variable (hg : g.Makes text) (s : Setting)
include hg

/-! ## Literals -/

/-- The parts of a template. Between two parts, the brace that ends a substitution has been read again
as the beginning of the next part. -/
theorem row_templateParts (tagged : Bool) (hp : p.token.StandsIn text) :
    After (templateParts g s tagged) p fun ns q => Begun text p ns q := by
  unfold templateParts
  refine .iterate (fun ns q => ∃ q₀ t, Row text p ns.reverse q₀ ∧ q₀.token.ReadAs t
    ∧ q = q₀.reread t) ⟨p, p.token, .nil hp, .plain, rfl⟩ ?_
  rintro substitutions q ⟨q₀, t, hrow, hread, rfl⟩
  refine .token ?_
  split
  · next part hpart =>
    have hpassed : t.isPassed = true := by
      simp only [Place.reread_token] at hpart
      rw [Token.isPassed, Token.isKept, hpart]
      rfl
    have hpartRow := hrow.pass hread hpassed
    refine .advance (.complain (.ite (fun _ => ?_) fun _ => .pure hpartRow))
    refine (hg.expression _ hpartRow.next).bind fun e r he => .ifAt (fun hclose => ?_) fun _ => ?_
    · refine .token (.reread (.pure ⟨r, _, ?_, .templateTail hclose, rfl⟩))
      show Row text p (e :: substitutions).reverse r
      rw [List.reverse_cons]
      exact (hpartRow.add he).toRow
    · exact .bind (After.fail (C := fun _ _ => False) _) fun _ _ h => h.elim
  · exact .fail _

theorem made_template (tagged : Bool) (hp : p.token.StandsIn text) :
    After (template g s tagged) p (Made text p) := by
  unfold template
  exact .here ((row_templateParts hg s tagged hp).bind fun ns q hns => made_node hns trivial nofun)

theorem made_spreadOr (hp : p.token.StandsIn text) :
    After (spreadOr g s .spreadElement) p (Made text p) := by
  unfold spreadOr
  refine .here (.ifAccept (fun hdots => ?_) fun _ => hg.assignment _ hp)
  refine (hg.assignment _ hp.next).bind fun e q he => ?_
  exact made_node (((Row.nil hp).punctuator hdots).add he) trivial nofun

theorem row_arrayElement (hp : p.token.StandsIn text) :
    After (arrayElement g s) p fun n q => Row text p [n] q := by
  unfold arrayElement
  refine .here (.ifAt (fun _ => .pure ?_) fun _ => ?_)
  · exact (Row.nil hp).hole
  · exact (made_spreadOr hg s hp).mono fun n q hn => hn.row.toRow

theorem made_arrayLiteral (hp : p.token.StandsIn text) :
    After (arrayLiteral g s) p (Made text p) := by
  unfold arrayLiteral
  refine .here (.expect fun hopen => ?_)
  refine (row_commaList hp.next fun q hq => row_arrayElement hg s hq).bind fun r q hitems => ?_
  exact made_node (((Row.nil hp).punctuator hopen).join hitems) trivial nofun

/-- The arguments of a call stand behind a parenthesis. -/
theorem listed_arguments (hp : p.token.StandsIn text) :
    After (arguments g s) p fun r q =>
      p.token.isPunctuator .lparen ∧ Listed text .rparen p.behind r.1 r.2 q := by
  unfold arguments
  refine .expect fun hopen => ?_
  refine .mono (listed_commaList hp.next (follows_behind hp) fun q hq _ => ?_) fun r q h => ⟨hopen, h⟩
  exact (made_spreadOr hg s hq).mono fun n q hn => hn.asItem

/-! ## Functions -/

theorem row_bodyItems (atEnd : Token → Bool) (hp : p.token.StandsIn text) :
    After (bodyItems g s atEnd) p fun ns q => Row text p ns q ∧ atEnd q.token := by
  unfold bodyItems
  refine .iterate (fun r q => Row text p r.1.reverse q) (.nil hp) ?_
  rintro ⟨items, prologue⟩ q hrow
  refine .token (.ite (fun hend => .pure ⟨hrow, hend⟩) fun _ => ?_)
  refine (hg.listItem s hrow.next).bind fun n r hn => ?_
  have hitems := hrow.add hn
  split
  · next raw value legacy span v l leaf cs _ _ =>
    refine .pure ?_
    show Row text p (_ :: items).reverse r
    rw [List.reverse_cons]
    -- a directive keeps the string that it is made from
    obtain ⟨hbefore, hstatement⟩ := allFaithful_append.1 hitems.faithful
    have hstatement := (allFaithful_cons.1 hstatement).1
    refine Begun.toRow (hitems.recast ((Recast.refl hbefore).append ?_))
    exact .node (hstatement.stretch rfl) (.refl hstatement.children) (fun _ => rfl) trivial
  · refine .pure ?_
    show Row text p (_ :: items).reverse r
    rw [List.reverse_cons]
    exact hitems.toRow

theorem made_functionBody (hp : p.token.StandsIn text) :
    After (functionBody g s) p (Made text p) := by
  unfold functionBody
  refine .here (.expect fun hopen => (row_bodyItems hg s _ hp.next).bind fun items q hitems => ?_)
  refine .expect fun hclose => ?_
  exact made_node ((((Row.nil hp).punctuator hopen).append hitems.1).punctuator hclose) trivial nofun

omit s in
theorem made_method (form : FunctionForm) (isAsync isGenerator : Bool) (hp : p.token.StandsIn text) :
    After (method g form isAsync isGenerator) p (Made text p) := by
  unfold method
  refine .here ((made_parameters hg _ hp).bind fun ps q hps => ?_)
  refine (made_functionBody hg _ hps.next).bind fun body r hbody => ?_
  exact made_node (((Row.nil hp).add hps).add hbody) trivial nofun

/-- A function whose beginning has been read already. -/
theorem made_functionFrom (form : FunctionForm) (isAsync nameless : Bool) (h : Row text p₀ [] p) :
    After (functionFrom g s p₀.token.span.start form isAsync nameless) p (Made text p₀) := by
  unfold functionFrom
  refine .expectWord fun hword => ((h.word hword).accept _).bind fun isGenerator q hq => ?_
  extract_lets inner rest
  have hrest (name : List Node) {q : Place} (hname : Begun text p₀ name q) :
      After (rest name) q (Made text p₀) := by
    refine (made_parameters hg _ hname.next).bind fun ps r hps => ?_
    refine (made_functionBody hg _ hps.next).bind fun body t hbody => ?_
    have hrow := (hname.add hps).add hbody
    rw [List.append_assoc] at hrow
    exact made_node hrow trivial nofun
  refine .at? (.ite (fun _ => hrest _ hq) fun _ => ?_)
  exact (made_bindingName _ hq.next).bind fun n r hn => hrest _ (hq.add hn)

/-- An arrow function whose parameters have been read already, if the arrow comes next. -/
theorem made_arrowFrom (isAsync : Bool) {ps : Node}
    (h : p.token.isPunctuator .arrow → Begun text p₀ [ps] p) :
    After (arrowFrom g s p₀.token.span.start isAsync ps) p (Made text p₀) := by
  unfold arrowFrom
  refine .expect fun harrow => ?_
  have hps := (h harrow).punctuator harrow
  extract_lets inner rest
  have hrest (body : Node) {q : Place} (hbody : Made text p.behind body q) :
      After (rest body) q (Made text p₀) := made_node (hps.add hbody) trivial nofun
  refine .ifAt (fun _ => ?_) fun _ => ?_
  · exact (made_functionBody hg _ hps.next).bind fun body q hbody => hrest _ hbody
  · exact (hg.assignment _ hps.next).bind fun e q he => hrest _ (he.around trivial nofun)

omit hg in
/-- The parameters of an arrow function take the place of the parenthesis and the items before the
arrow. -/
theorem row_arrowParameters {items : List Node} {comma : Bool} (isAsync : Bool)
    (hp : p.token.StandsIn text) (hopen : p.token.isPunctuator .lparen = true)
    (h : Listed text .rparen p.behind items comma q) :
    After (arrowParameters ⟨p.token.span.start, q.lastStop⟩ comma isAsync items) q fun ps t =>
      Begun text p [ps] q ∧ t = q := by
  unfold arrowParameters
  split
  · next ps hps =>
    refine .ite (fun _ => .failAt _ _) fun _ => .takeUp (.pure ⟨?_, rfl⟩)
    obtain ⟨hrecast, hspans, hrest⟩ := recast_of_toParameters? h.row.faithful hps
    have hrow : Begun text p ps q := (((Row.nil hp).punctuator hopen).join h.row).recast hrecast
    have hlast (l : Node) (hl : ps.getLast? = some l) :
        ∃ i, items.getLast? = some i ∧ i.span = l.span := by
      have hmap := congrArg List.getLast? hspans
      rw [List.getLast?_map, List.getLast?_map, hl] at hmap
      exact Option.map_eq_some_iff.1 hmap.symm
    refine hrow.nest rfl ⟨fun l hl => ?_, fun l hl hkind => ?_⟩
    · obtain ⟨i, hi, hil⟩ := hlast l hl
      rw [← hil]
      exact h.closed hp.start_le_stop i hi
    · obtain ⟨i, hi, hil⟩ := hlast l hl
      rw [← hil]
      refine h.not_comma (by decide) hi ((hrest l hl hkind).imp id ?_)
      rintro ⟨j, hj, hkind⟩
      cases hi.symm.trans hj
      exact hkind
  · exact .failAt _ _

/-! ## Objects -/

omit hg s in
/-- In front of the key of a property that is no method, no word is taken. -/
theorem row_modifiers (hp : p.token.StandsIn text) :
    After modifiers p fun m q => Row text p [] q
      ∧ (m.isAsync = false → m.isGenerator = false → m.form = .method → q = p) := by
  have hrow := Row.nil hp
  unfold modifiers
  refine .token ?_
  extract_lets word
  refine .ite (fun h => ?_) fun _ => .ite (fun h => ?_) fun _ => .ite (fun h => ?_) fun _ => ?_
  · have hword : p.token.isWord "async" := (Bool.and_eq_true_iff.1 (Bool.and_eq_true_iff.1 h).1).1
    exact .advance (((hrow.word hword).accept _).bind fun _ q hq => .pure ⟨hq.toRow, nofun⟩)
  · have hword : p.token.isWord "get" := (Bool.and_eq_true_iff.1 (Bool.and_eq_true_iff.1 h).1).1
    exact .advance (.pure ⟨(hrow.word hword).toRow, nofun⟩)
  · have hword : p.token.isWord "set" := (Bool.and_eq_true_iff.1 (Bool.and_eq_true_iff.1 h).1).1
    exact .advance (.pure ⟨(hrow.word hword).toRow, nofun⟩)
  · exact .accept (fun hstar => .pure ⟨(hrow.punctuator hstar).toRow, nofun⟩) fun _ =>
      .pure ⟨hrow, fun _ _ _ => rfl⟩

theorem made_objectProperty (hp : p.token.StandsIn text) :
    After (objectProperty g s) p (Made text p) := by
  unfold objectProperty
  refine .here (.ifAccept (fun hdots => ?_) fun _ => ?_)
  · refine (hg.assignment _ hp.next).bind fun e q he => ?_
    exact made_node (((Row.nil hp).punctuator hdots).add he) trivial nofun
  · refine (row_modifiers hp).bind fun m q ⟨hm, hplain⟩ => .token ?_
    refine (row_propertyKey hg s hm.next).bind fun r t ⟨hkey, hname⟩ => ?_
    obtain ⟨key, computed⟩ := r
    have hrow : Begun text p [key] t := hm.join hkey
    refine .at? (.ite (fun _ => ?_) fun hmethod => .ifAccept (fun hcolon => ?_) fun _ => ?_)
    · refine (made_method hg _ _ _ hkey.next).bind fun f u hf => ?_
      exact made_node (hrow.add hf) trivial nofun
    · refine (hg.assignment _ hkey.next.next).bind fun value u hvalue => ?_
      exact made_node ((hrow.punctuator hcolon).add hvalue) trivial nofun
    · split
      · next name hvariable =>
        -- a name alone stands for the property and for its value
        cases hname name (name?_of_variableIn? s hvariable)
        obtain rfl : q = p := by
          simp only [Bool.or_eq_true, not_or, Bool.not_eq_true, bne_eq_false_iff_eq] at hmethod
          exact hplain hmethod.1.1.2 hmethod.1.2 hmethod.2
        have hboth : Begun text q ([_] ++ [.mk (.reference name) q.token.span []]) t := hrow.again rfl rfl
        refine .ifAccept (fun hassign => ?_) fun _ => ?_
        · refine (hg.assignment _ hkey.next.next).bind fun initial u hinitial => .addDefault ?_
          have hrow := (hboth.punctuator hassign).add hinitial
          exact made_node hrow ⟨name, q.token.span, [initial], rfl, rfl⟩ nofun
        · exact made_node hboth ⟨name, q.token.span, [], rfl, rfl⟩ nofun
      · exact .fail _

theorem made_objectLiteral (hp : p.token.StandsIn text) :
    After (objectLiteral g s) p (Made text p) := by
  unfold objectLiteral
  refine .here (.expect fun hopen => ?_)
  refine .bind (listed_commaList hp.next (follows_behind hp) fun q hq _ =>
    (made_objectProperty hg s hq).mono fun n r hn => hn.asItem) fun r q hitems => ?_
  refine made_node (((Row.nil hp).punctuator hopen).join hitems.row) ?_ nofun
  exact hitems.closed hp.start_le_stop

/-! ## Parentheses -/

theorem made_parenthesizedItem (hp : p.token.StandsIn text) :
    After (parenthesizedItem g s) p fun n q => Spans text p n q ∧ RestBefore .rparen n q.token := by
  unfold parenthesizedItem
  refine .here (.ifAccept (fun hdots => ?_) fun _ => ?_)
  · refine .mono (made_restElement ((Row.nil hp).punctuator hdots) (hg.bindingTarget s hp.next)) ?_
    exact fun n q hn => ⟨hn.1, fun _ => hn.2⟩
  · exact (hg.assignment _ hp).mono fun n q hn => hn.asItem

omit hg s in
/-- Expressions with commas between them are put into a node, if it covers a part of the text. -/
theorem row_of_sequenceOf {e : Node} (h : Begun text p ns q)
    (hspan : ∀ first last, ns.head? = some first → ns.getLast? = some last →
      Stretch text (first.span.through last.span))
    (he : sequenceOf ns = some e) : Begun text p [e] q := by
  unfold sequenceOf at he
  split at he
  · cases he
  · cases he
    exact h
  · cases he
    exact h.recast (.wrap (hspan _ _ rfl (List.getLast?_eq_some_getLast _)) h.faithful rfl trivial)

/-- What stands in parentheses, or the arrow function that they begin. -/
theorem made_parenthesized (arrow : Bool) (hp : p.token.StandsIn text) :
    After (parenthesized g s arrow) p fun r q => Made text p r.1 q := by
  unfold parenthesized
  refine .here (.expect fun hopen => ?_)
  refine .bind (listed_commaList hp.next (follows_behind hp) fun q hq _ =>
    made_parenthesizedItem hg s hq) fun r q hitems => ?_
  obtain ⟨items, comma⟩ := r
  have hrow : Begun text p items q := ((Row.nil hp).punctuator hopen).join hitems.row
  refine .spanFrom (.token (.ite (fun _ => ?_) fun _ => .ite (fun _ => .fail _) fun _ => ?_))
  · refine (row_arrowParameters _ hp hopen hitems).bind fun ps t ⟨hps, ht⟩ => ?_
    subst ht
    exact (made_arrowFrom hg s _ fun _ => hps).bind fun f t hf => .pure hf
  · split
    · next e he =>
      exact .pure ⟨⟨(row_of_sequenceOf hrow hitems.through he).nest rfl trivial, rfl⟩, by simp⟩
    · exact .fail _

/-! ## Classes -/

theorem row_classKey (hp : p.token.StandsIn text) :
    After (classKey g s) p fun r q => Begun text p [r.1] q := by
  unfold classKey
  refine .token ?_
  split
  · exact (made_privateName hp).bind fun n q hn => .pure hn.row
  · exact (row_propertyKey hg s hp).mono fun r q hr => hr.1

theorem made_classElement (derived : Bool) (hp : p.token.StandsIn text) :
    After (classElement g s derived) p (Made text p) := by
  unfold classElement
  refine .token ?_
  extract_lets start isStatic inner rest
  have hrest {q : Place} (hq : Row text p [] q) : After (rest ()) q (Made text p) := by
    refine .at? (.ite (fun hbrace => ?_) fun _ => ?_)
    · have hbrace := (Bool.and_eq_true_iff.1 hbrace).2
      have hopen := hq.punctuator hbrace
      refine .advance ((row_itemsUntil hopen.next fun r hr => hg.listItem _ hr).bind ?_)
      exact fun items r hitems => made_node (hopen.join hitems) trivial nofun
    · refine (row_modifiers hq.next).bind fun m r ⟨hm, _⟩ => ?_
      extract_lets plain
      refine (row_classKey hg s hm.next).bind fun k t hkey => ?_
      obtain ⟨key, computed⟩ := k
      have hrow : Begun text p [key] t := (hq.append hm).join hkey
      refine .at? ?_
      extract_lets isMethod faults form finish
      refine .complain (.ite (fun _ => ?_) fun _ => ?_)
      · refine (made_method hg _ _ _ hrow.next).bind fun f u hf => ?_
        exact made_node (hrow.add hf) trivial nofun
      · have hfinish (value : List Node) {u : Place} (hvalue : Begun text p (key :: value) u) :
            After (finish value) u (Made text p) :=
          hvalue.endStatement.bind fun _ v hv => made_node hv trivial nofun
        refine .ifAccept (fun hassign => ?_) fun _ => hfinish _ hrow
        refine (hg.assignment _ hrow.next.next).bind fun e u he => hfinish _ ?_
        exact (hrow.punctuator hassign).add (he.around trivial nofun)
  refine .ite (fun h => ?_) fun _ => hrest (.nil hp)
  have hword : p.token.isWord "static" := (Bool.and_eq_true_iff.1 h).1
  exact .advance (hrest ((Row.nil hp).word hword).toRow)

theorem made_classBody (derived : Bool) (hp : p.token.StandsIn text) :
    After (classBody g s derived) p (Made text p) := by
  unfold classBody
  refine .here (.expect fun hopen => .bind (C := fun ns q => Begun text p ns q)
    (.iterate (fun items q => Begun text p items.reverse q) ((Row.nil hp).punctuator hopen) ?_)
    fun items q hitems => made_node hitems trivial nofun)
  intro items q hq
  refine .ifAccept (fun hclose => .pure (hq.punctuator hclose)) fun _ => ?_
  refine .ifAccept (fun hempty => .pure (hq.punctuator hempty)) fun _ => ?_
  refine (made_classElement hg s _ hq.next).bind fun n r hn => .pure ?_
  show Begun text p (n :: items).reverse r
  rw [List.reverse_cons]
  exact hq.add hn

/-- A class is made from its keyword on. -/
theorem made_classFrom (isDeclaration nameless : Bool) (hp : p.token.StandsIn text) :
    After (classFrom g s isDeclaration nameless) p (Made text p) := by
  unfold classFrom
  refine .here (.expectWord fun hword => ?_)
  have hclass := (Row.nil hp).word hword
  extract_lets rest
  have hrest (name : List Node) {q : Place} (hname : Begun text p name q) :
      After (rest name) q (Made text p) := by
    show After (Reader.acceptWord _ >>= _) q _
    refine .bind (C := fun _ r => Begun text p name r) (hname.acceptWord _) fun hasParent r hr => ?_
    extract_lets finish
    have hfinish (parent : List Node) {t : Place} (hparent : Begun text p (name ++ parent) t) :
        After (finish parent) t (Made text p) := by
      refine (made_classBody hg s _ hparent.next).bind fun body u hbody => ?_
      exact made_node (hparent.add hbody) trivial nofun
    refine .ite (fun _ => ?_) fun _ => hfinish _ (by rwa [List.append_nil])
    exact (hg.member s true hr.next).bind fun e t he => hfinish _ (hr.add (he.around trivial nofun))
  have hnamed : After (readVariable s .bindingName >>= fun n => rest [n]) p.behind (Made text p) :=
    (made_bindingName s hclass.next).bind fun n q hn => hrest _ (hclass.add hn)
  exact .at? (.atWord? (.ite (fun _ => hrest _ hclass) fun _ => hnamed))

/-! ## Members and calls -/

theorem made_importExpression (calls : Bool) (hp : p.token.StandsIn text) :
    After (importExpression g s calls) p (Made text p) := by
  unfold importExpression
  refine .here (.expectWord fun hword => ?_)
  have hrow := (Row.nil hp).word hword
  refine .ifAccept (fun hdot => .expectWord fun hmeta => ?_) fun _ => ?_
  · exact made_node ((hrow.punctuator hdot).word hmeta) trivial nofun
  · refine .ite (fun _ => .expect fun hopen => ?_) fun _ => .fail _
    have hrow := hrow.punctuator hopen
    refine (row_commaList hrow.next fun q hq => ?_).bind fun r q hitems => ?_
    · exact (hg.assignment _ hq).mono fun n t hn => hn.row.toRow
    · exact .ite (fun _ => .fail _) fun _ => made_node (hrow.join hitems) trivial nofun

omit hg s in
theorem made_superExpression (calls : Bool) (hp : p.token.StandsIn text)
    (hword : p.token.isWord "super" = true) : After (superExpression calls) p (Made text p) := by
  unfold superExpression
  refine .advance (.at? (.at? (.at? (.ite (fun _ => .pure ?_) fun _ => .fail _))))
  exact made_skipped hp (isPassed_of_isWord hword) trivial nofun

omit hg s in
theorem made_memberTail_finish (chained : Bool) (h : Made text p₀ n p) :
    After (memberTail.finish p₀.token.span.start n chained) p (Made text p₀) := by
  unfold memberTail.finish
  exact .ite (fun _ => made_node h.row trivial nofun) fun _ => .pure h

/-- What one link behind an expression gives: an expression to go on from, or the last one. -/
def Linked (text : List Char) (p : Place) : (Node × Bool) ⊕ Node → Place → Prop :=
  Sum.elim (fun r q => Made text p r.1 q) (Made text p)

omit hg s in
theorem linked_of_made {x : Reader Node} (hx : After x p (Made text p₀)) (chained : Bool) :
    After (do return .inl (← x, chained)) p (Linked text p₀) :=
  hx.bind fun _ _ hn => .pure hn

theorem linked_call (h : Begun text p₀ [n] p) (chained : Bool) :
    After (do
      let r ← arguments g s
      return .inl (← node p₀.token.span.start (.call r.2) (n :: r.1), chained))
      p (Linked text p₀) := by
  refine (listed_arguments hg s h.next).bind fun r q ⟨hopen, hitems⟩ => linked_of_made ?_ chained
  refine made_node ((h.punctuator hopen).join hitems.row) (hitems.closed ?_) nofun
  exact Nat.le_trans h.ordered.le h.next.start_le_stop

theorem linked_index (h : Begun text p₀ [n] p) (chained : Bool) :
    After (do
      let i ← g.expression s.withIn
      let _ ← expect .rbracket
      return .inl (← node p₀.token.span.start .index [n, i], chained))
      p (Linked text p₀) := by
  refine (hg.expression _ h.next).bind fun i q hi => .expect fun hclose => linked_of_made ?_ chained
  exact made_node ((h.add hi).punctuator hclose) trivial nofun

/-- The member accesses and calls behind an expression. -/
theorem made_memberTail (calls : Bool) (h : Made text p₀ n p) :
    After (memberTail g s calls p₀.token.span.start n) p (Made text p₀) := by
  unfold memberTail
  refine .iterate (fun r q => Made text p₀ r.1 q) h ?_
  rintro ⟨e, chained⟩ q hmade
  have he : Made text p₀ e q := hmade
  have hfinish : After (do return .inr (← memberTail.finish p₀.token.span.start e chained)) q
      (Linked text p₀) :=
    (made_memberTail_finish chained he).bind fun _ _ hn => .pure hn
  extract_lets link
  have hlink {q : Place} (he : Begun text p₀ [e] q) :
      After (link p₀.token.span.start e) q (Made text p₀) := by
    refine .token ?_
    split
    · exact (made_privateName he.next).bind fun name r hname => made_node (he.add hname) trivial nofun
    · exact (made_propertyName he.next).bind fun name r hname =>
        made_node (he.add hname.1) trivial nofun
  refine .token ?_
  split
  · next hdot =>
    exact .advance (linked_of_made (hlink (he.row.punctuator (isPunctuator_of_lexeme hdot))) _)
  · next hopen =>
    exact .advance (linked_index hg s (he.row.punctuator (isPunctuator_of_lexeme hopen)) _)
  · refine .ite (fun _ => .fail _) fun _ => ?_
    refine (made_template hg s true he.next).bind fun quasi r hquasi => linked_of_made ?_ _
    exact made_node (he.row.add hquasi) trivial nofun
  · exact .ite (fun _ => linked_call hg s he.row _) fun _ => hfinish
  · next hdot =>
    refine .ite (fun _ => ?_) fun _ => .fail _
    have hrow := he.row.punctuator (isPunctuator_of_lexeme hdot)
    refine .advance (.ifAt (fun _ => linked_call hg s hrow _) fun _ => ?_)
    refine .ifAccept (fun hopen => ?_) fun _ => linked_of_made (hlink hrow) _
    exact linked_index hg s (hrow.punctuator hopen) _
  · exact hfinish

theorem made_newExpression (hp : p.token.StandsIn text) :
    After (newExpression g s) p (Made text p) := by
  unfold newExpression
  refine .here (.expectWord fun hword => ?_)
  have hrow := (Row.nil hp).word hword
  refine .ifAccept (fun hdot => .expectWord fun htarget => ?_) fun _ => ?_
  · exact made_node ((hrow.punctuator hdot).word htarget) trivial nofun
  · refine (hg.member s false hrow.next).bind fun callee q hcallee => .ifAt (fun _ => ?_) fun _ => ?_
    · refine (listed_arguments hg s hcallee.next).bind fun r t ⟨hopen, hitems⟩ => ?_
      have hrow := hrow.add hcallee
      refine made_node ((hrow.punctuator hopen).join hitems.row) (hitems.closed ?_) nofun
      exact Nat.le_trans hrow.ordered.le hcallee.next.start_le_stop
    · exact made_node (hrow.add hcallee) (fun l hl => by cases hl) nofun

/-! ## Expressions without operators -/

omit hg s in
theorem fits_of_wordLiteral? {word : String} {kind : Kind} (h : wordLiteral? word = some kind)
    (span : Span) : (Node.mk kind span []).Fits text ∧ kind ≠ .restElement := by
  unfold wordLiteral? at h
  repeat' split at h
  all_goals cases h
  all_goals exact ⟨trivial, by simp⟩

omit hg s in
/-- A slash is read again as the beginning of a regular expression. -/
theorem made_regExp (hp : p.token.StandsIn text)
    (hslash : p.token.isPunctuator .slash ∨ p.token.isPunctuator .slashAssign) :
    After (primary.regExp p.token) p (Made text p) := by
  unfold primary.regExp
  refine .reread (.token (.ite (fun hlexeme => .advance (.pure ?_)) fun _ => .fail _))
  have hlexeme : p.token.asRegExp.lexeme = .regExp := beq_iff_eq.1 hlexeme
  refine ⟨⟨(Row.nil hp).leaf (.regExp hslash) trivial ?_, ?_⟩, by simp⟩
  · show Kind.regExpLiteral.spells p.token.asRegExp.lexeme
    rw [hlexeme]
    rfl
  · show p.token.asRegExp.span = _
    rw [hp.asRegExp.span_eq, hp.span_eq]
    rfl

theorem made_primary (calls : Bool) (hp : p.token.StandsIn text) :
    After (primary g s calls) p (Made text p) := by
  unfold primary
  refine .token ?_
  split
  · next word escaped hlexeme =>
    refine .ite (fun _ => made_reference s hp) fun hescaped => ?_
    have hlexeme : p.token.lexeme = .name word false := by
      rw [hlexeme, Bool.eq_false_iff.2 hescaped]
    refine .ite (fun _ => made_functionFrom hg s _ _ _ (.nil hp)) fun _ => ?_
    refine .ite (fun _ => made_classFrom hg s _ _ hp) fun _ => ?_
    refine .ite (fun _ => made_newExpression hg s hp) fun _ => ?_
    refine .ite (fun hsuper => made_superExpression _ hp ?_) fun _ => ?_
    · exact isWord_of_lexeme (beq_iff_eq.1 hsuper ▸ hlexeme)
    refine .ite (fun _ => made_importExpression hg s _ hp) fun _ => ?_
    refine .ite (fun hasync => ?_) fun _ => ?_
    · have hasync : p.token.isWord "async" :=
        (Bool.and_eq_true_iff.1 (Bool.and_eq_true_iff.1 hasync).1).1
      exact .advance (made_functionFrom hg s _ _ _ ((Row.nil hp).word hasync).toRow)
    split
    · next kind hkind =>
      obtain ⟨hfits, hplain⟩ := fits_of_wordLiteral? hkind p.token.span
      have hword := isPassed_of_isWord (isWord_of_lexeme hlexeme)
      exact .advance (.pure (made_skipped hp hword hfits hplain))
    · exact made_reference s hp
  · exact made_template hg s _ hp
  · exact (made_parenthesized hg s _ hp).bind fun r q hr => .pure hr
  · exact made_arrayLiteral hg s hp
  · exact made_objectLiteral hg s hp
  · next hslash => exact made_regExp hp (.inl (isPunctuator_of_lexeme hslash))
  · next hslash => exact made_regExp hp (.inr (isPunctuator_of_lexeme hslash))
  · split
    · next kind hkind =>
      obtain ⟨hspells, hfits⟩ := spells_of_literalKind? text hkind
      exact .advance (.pure (made_leaf hp hspells (hfits _)))
    · exact .fail _

/-- An expression with the member accesses and calls behind it. -/
theorem made_member (calls : Bool) (hp : p.token.StandsIn text) :
    After (member g s calls) p (Made text p) := by
  unfold member
  refine (made_primary hg s calls hp).bind fun e q he => ?_
  rw [he.start]
  exact made_memberTail hg s calls he

end EditionCheck.Script
