import EditionCheck.Proofs.Passage
import EditionCheck.Script.Binding

/-!
# Names and binding patterns are made from their tokens

`Rules.Makes` says that the productions that refer back make trees from their tokens. If they do, so do
the productions for names, keys, patterns that declare names, and parameter lists.

* `made_readVariable`, `row_propertyKey` — names and keys;
* `made_bindingTarget`, `made_parameters` — patterns and parameter lists.
-/

set_option autoImplicit false

namespace EditionCheck.Script

open EditionCheck.Text Reader Node

/-- The productions that refer back make trees from their tokens. -/
structure Rules.Makes (g : Rules) (text : List Char) : Prop where
  expression (s : Setting) {p : Place} :
    p.token.StandsIn text → After (g.expression s) p (Made text p)
  assignment (s : Setting) {p : Place} :
    p.token.StandsIn text → After (g.assignment s) p (Made text p)
  unary (s : Setting) {p : Place} : p.token.StandsIn text → After (g.unary s) p (Made text p)
  binary (s : Setting) (level : Nat) {p : Place} :
    p.token.StandsIn text → After (g.binary s level) p (Made text p)
  member (s : Setting) (calls : Bool) {p : Place} :
    p.token.StandsIn text → After (g.member s calls) p (Made text p)
  bindingTarget (s : Setting) {p : Place} :
    p.token.StandsIn text → After (g.bindingTarget s) p (Made text p)
  statement (s : Setting) {p : Place} :
    p.token.StandsIn text → After (g.statement s) p (Made text p)
  listItem (s : Setting) {p : Place} :
    p.token.StandsIn text → After (g.listItem s) p (Made text p)

variable {text : List Char} {p p₀ q : Place} {ns : List Node}

/-! ## Names -/

section

variable {t : Token} {x : String} (s : Setting)

theorem lexeme_of_name? (h : t.name? = some x) : ∃ escaped, t.lexeme = .name x escaped := by
  unfold Token.name? at h
  split at h
  · next y escaped hy =>
    cases h
    exact ⟨escaped, hy⟩
  · cases h

theorem name?_of_variableIn? (h : s.variableIn? t = some x) : t.name? = some x :=
  (Option.filter_eq_some_iff.1 h).1

theorem made_readVariable {kind : String → Kind} (hp : p.token.StandsIn text)
    (hspells : ∀ x escaped, (kind x).spells (.name x escaped))
    (hfits : ∀ x span, (Node.mk (kind x) span []).Fits text) :
    After (readVariable s kind) p (Made text p) := by
  unfold readVariable
  refine .token ?_
  split
  · next x hx =>
    obtain ⟨escaped, hlexeme⟩ := lexeme_of_name? (name?_of_variableIn? s hx)
    refine .advance (.pure (made_leaf hp ?_ (hfits _ _)))
    rw [hlexeme]
    exact hspells x escaped
  · exact .fail _

theorem made_bindingName (hp : p.token.StandsIn text) :
    After (readVariable s .bindingName) p (Made text p) :=
  made_readVariable s hp (fun _ _ => beq_self_eq_true _) fun _ _ => trivial

theorem made_labelName (hp : p.token.StandsIn text) :
    After (readVariable s .labelName) p (Made text p) :=
  made_readVariable s hp (fun _ _ => beq_self_eq_true _) fun _ _ => trivial

theorem made_reference (hp : p.token.StandsIn text) :
    After (readVariable s .reference) p (Made text p) :=
  made_readVariable s hp (fun _ _ => beq_self_eq_true _) fun _ _ => rfl

theorem made_propertyName (hp : p.token.StandsIn text) :
    After propertyName p fun n q => Made text p n q
      ∧ ∀ x, p.token.name? = some x → n = .mk (.propertyName x) p.token.span [] := by
  unfold propertyName
  refine .token ?_
  split
  · next x hx =>
    obtain ⟨escaped, hlexeme⟩ := lexeme_of_name? hx
    refine .advance (.pure ⟨made_leaf hp ?_ trivial, fun y hy => ?_⟩)
    · rw [hlexeme]
      exact beq_self_eq_true x
    · rw [hx] at hy
      cases hy
      rfl
  · exact .fail _

theorem made_privateName (hp : p.token.StandsIn text) : After privateName p (Made text p) := by
  unfold privateName
  refine .token ?_
  split
  · next x hx =>
    refine .advance (.pure (made_leaf hp ?_ trivial))
    rw [hx]
    exact beq_self_eq_true x
  · exact .fail _

end

/-- The leaf of a literal spells it, and is in shape. -/
theorem spells_of_literalKind? (text : List Char) {l : Lexeme} {kind : Kind}
    (h : literalKind? l = some kind) :
    kind.spells l ∧ ∀ span, (Node.mk kind span []).Fits text := by
  unfold literalKind? at h
  split at h
  · cases h
    exact ⟨beq_self_eq_true _, fun _ => trivial⟩
  · cases h
    exact ⟨rfl, fun _ => trivial⟩
  · cases h
    simp [Kind.spells, Fits]
  · cases h

section

variable {g : Rules} (hg : g.Makes text) (s : Setting)
include hg

/-- A key that is a name is the name of the next token. -/
theorem row_propertyKey (hp : p.token.StandsIn text) :
    After (propertyKey g s) p fun r q => Begun text p [r.1] q
      ∧ ∀ x, p.token.name? = some x → r.1 = .mk (.propertyName x) p.token.span [] := by
  unfold propertyKey
  refine .token (.ite (fun hbracket => ?_) fun _ => ?_)
  · refine .advance ((hg.assignment _ hp.next).bind fun e q he => .expect fun hclose => .pure ?_)
    refine ⟨(((Row.nil hp).punctuator hbracket).add he).punctuator hclose, fun x hx => ?_⟩
    obtain ⟨escaped, hlexeme⟩ := lexeme_of_name? hx
    rw [lexeme_of_isPunctuator hbracket] at hlexeme
    cases hlexeme
  · split
    · next kind hkind =>
      obtain ⟨hspells, hfits⟩ := spells_of_literalKind? text hkind
      refine .advance (.pure ⟨(made_leaf hp hspells (hfits _)).row, fun x hx => ?_⟩)
      obtain ⟨escaped, hlexeme⟩ := lexeme_of_name? hx
      rw [hlexeme] at hkind
      cases hkind
    · exact (made_propertyName hp).bind fun n q hn => .pure ⟨hn.1.row, hn.2⟩

/-! ## Binding patterns -/

/-- A pattern with its default takes the place of the pattern at the end of a row. -/
theorem row_withDefault {e : Node} (h : Begun text p₀ (ns ++ [e]) p) (he : Stretch text e.span) :
    After (withDefault g s e) p fun n q => Begun text p₀ (ns ++ [n]) q
      ∧ n.span.start = e.span.start ∧ (e.span.stop = p.lastStop → n.span.stop = q.lastStop)
      ∧ (e.kind ≠ .restElement → n.kind ≠ .restElement) := by
  unfold withDefault
  refine .ifAccept (fun hassign => ?_) fun _ => .pure ⟨h, rfl, id, id⟩
  refine (hg.assignment _ h.next.next).bind fun value q hvalue => ?_
  refine .node ⟨?_, rfl, fun _ => rfl, fun _ => by simp⟩
  have hboth := (h.punctuator hassign).add hvalue
  rw [List.append_assoc] at hboth
  obtain ⟨hns, hpattern⟩ := allFaithful_append.1 hboth.faithful
  have hstart := (h.ordered.start_of_mem (List.mem_append_right ns List.mem_cons_self)).2
  have hlt : e.span.start < q.lastStop :=
    Nat.lt_of_le_of_lt (Nat.le_trans hstart h.next.start_le_next) hvalue.row.advanced
  have hspan : Stretch text ⟨e.span.start, q.lastStop⟩ := ⟨he.start, hvalue.row.follows.standsIn, hlt⟩
  exact hboth.recast ((Recast.refl hns).append (.wrap hspan hpattern rfl trivial))

theorem made_bindingElement (hp : p.token.StandsIn text) :
    After (bindingElement g s) p (Made text p) := by
  unfold bindingElement
  refine (hg.bindingTarget s hp).bind fun e q he => ?_
  have hrow : Begun text p ([] ++ [e]) q := he.row
  refine (row_withDefault hg s hrow he.stretch).mono fun n r ⟨hn, hstart, hstop, hplain⟩ => ?_
  have hstop := hstop (by rw [he.span])
  rw [he.start] at hstart
  refine ⟨⟨hn, ?_⟩, hplain he.plain⟩
  rw [← hstart, ← hstop]

omit hg in
/-- A rest element is made behind its three dots, and the given punctuator follows. -/
theorem made_restElement {close : Punctuator} {target : Reader Node} (h : Begun text p₀ [] p)
    (htarget : After target p (Made text p)) :
    After (restElement p₀.token.span.start close target) p fun n q =>
      Spans text p₀ n q ∧ q.token.isPunctuator close := by
  unfold restElement
  refine htarget.bind fun e q he => .bind (spans_node (h.add he) trivial) fun n r hn => ?_
  exact .ifAt (fun hclose => .pure ⟨hn, hclose⟩) fun _ => .fail _

theorem row_arrayPatternElement (hp : p.token.StandsIn text) :
    After (arrayPatternElement g s) p fun n q => Row text p [n] q := by
  unfold arrayPatternElement
  refine .here (.ifAt (fun _ => .pure ?_) fun _ => .ifAccept (fun hdots => ?_) fun _ => ?_)
  · exact (Row.nil hp).hole
  · have hrow := (Row.nil hp).punctuator hdots
    exact .mono (made_restElement hrow (hg.bindingTarget s hp.next)) fun n q hn => hn.1.row.toRow
  · exact (made_bindingElement hg s hp).mono fun n q hn => hn.row.toRow

/-- Only the closing brace follows a rest in an object pattern. -/
theorem made_objectPatternProperty (hp : p.token.StandsIn text) :
    After (objectPatternProperty g s) p fun n q =>
      Spans text p n q ∧ RestBefore .rbrace n q.token := by
  unfold objectPatternProperty
  refine .token ?_
  extract_lets start
  refine .ifAccept (fun hdots => ?_) fun _ => ?_
  · have hrow := (Row.nil hp).punctuator hdots
    exact .mono (made_restElement hrow (made_bindingName s hp.next)) fun n q hn => ⟨hn.1, fun _ => hn.2⟩
  · refine (row_propertyKey hg s hp).bind fun r q ⟨hkey, hname⟩ => ?_
    obtain ⟨key, computed⟩ := r
    refine .ifAccept (fun hcolon => ?_) fun _ => ?_
    · refine (made_bindingElement hg s hkey.next.next).bind fun value r hvalue => ?_
      have hrow := (hkey.punctuator hcolon).add hvalue
      exact .mono (made_node hrow trivial nofun) fun n q hn => hn.asItem
    · split
      · next x hx =>
        -- a name alone stands for the property and is declared
        cases hname x (name?_of_variableIn? s hx)
        have hboth : Begun text p ([_] ++ [.mk (.bindingName x) p.token.span []]) q :=
          hkey.again rfl trivial
        have hname := (allFaithful_cons.1 hkey.faithful).1.stretch rfl
        refine (row_withDefault hg s hboth hname).bind fun value r hvalue => ?_
        exact .mono (made_node hvalue.1 trivial nofun) fun n q hn => hn.asItem
      · exact .failAt _ _

/-- A pattern that declares names. -/
theorem made_bindingTarget (hp : p.token.StandsIn text) :
    After (bindingTarget g s) p (Made text p) := by
  unfold bindingTarget
  refine .here (.ifAccept (fun hbracket => ?_) fun _ => .ifAccept (fun hbrace => ?_) fun _ => ?_)
  · refine (row_commaList hp.next fun q hq => row_arrayPatternElement hg s hq).bind fun r q hitems => ?_
    exact made_node (((Row.nil hp).punctuator hbracket).join hitems) trivial nofun
  · refine .bind (listed_commaList hp.next (follows_behind hp) fun q hq _ =>
      made_objectPatternProperty hg s hq) fun r q hitems => ?_
    refine made_node (((Row.nil hp).punctuator hbrace).join hitems.row) ?_ nofun
    exact hitems.restLast (by decide)
  · exact made_bindingName s hp

/-! ## Parameters -/

theorem made_parameter (hp : p.token.StandsIn text) :
    After (parameter g s) p fun n q =>
      Spans text p n q ∧ RestBefore .rparen n q.token := by
  unfold parameter
  refine .here (.ifAccept (fun hdots => ?_) fun _ => ?_)
  · have hrow := (Row.nil hp).punctuator hdots
    exact .mono (made_restElement hrow (hg.bindingTarget s hp.next)) fun n q hn =>
      ⟨hn.1, fun _ => hn.2⟩
  · refine (made_bindingElement hg s hp).bind fun e q he => .pure ?_
    exact Made.asItem (he.around trivial nofun)

theorem made_parameters (hp : p.token.StandsIn text) : After (parameters g s) p (Made text p) := by
  unfold parameters
  refine .here (.expect fun hopen => ?_)
  refine .bind (listed_commaList hp.next (follows_behind hp) fun q hq _ =>
    made_parameter hg s hq) fun r q hitems => ?_
  refine made_node (((Row.nil hp).punctuator hopen).join hitems.row) ⟨?_, ?_⟩ nofun
  · exact hitems.closed hp.start_le_stop
  · exact fun l hl hkind => hitems.not_comma (by decide) hl (.inr hkind)

end

end EditionCheck.Script
