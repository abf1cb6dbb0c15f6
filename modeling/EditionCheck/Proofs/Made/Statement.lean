import EditionCheck.Proofs.Made.Operation
import EditionCheck.Script.Program

/-!
# Scripts are made from their tokens

The productions for statements and declarations make trees from their tokens. By induction on the depth
to which productions are nested, so does the whole grammar: the tree of a script keeps the tokens from
the first one to the end of the text.

* `made_statement`, `made_listItem` — all statements and declarations;
* `makes_upTo` — the productions that refer back, at every depth;
* `row_of_parse`, `faithful_of_parse`, `ordered_of_parse` — every script that can be parsed;
* `tokens_of_parse` — the row of tokens that it is read from, and its leaves.
-/

set_option autoImplicit false

namespace EditionCheck.Script

open EditionCheck.Text Reader Node

variable {text : List Char} {g : Rules} {p p₀ q : Place} {ns : List Node} {e : Node}
variable (hg : g.Makes text) (s : Setting)
include hg

/-! ## Declarations -/

theorem made_declarator (hp : p.token.StandsIn text) : After (declarator g s) p (Made text p) := by
  unfold declarator
  refine (made_bindingTarget hg s hp).bind fun d q hd => .ifAccept (fun hassign => ?_) fun _ => ?_
  · have hrow := hd.row.punctuator hassign
    refine (hg.assignment s hrow.next).bind fun value r hvalue => ?_
    rw [hd.start]
    exact made_node (hrow.add hvalue) trivial nofun
  · exact .pure (hd.around trivial nofun)

/-- The declared patterns behind a word. -/
theorem row_declarators (h : Row text p₀ [] p) (hword : p.token.isPassed = true) :
    After (declarators g s) p fun ds q => Begun text p₀ ds q := by
  unfold declarators
  have hrow := h.skip hword
  refine .advance ((made_declarator hg s hrow.next).bind fun first q hfirst => ?_)
  refine .iterate (fun ds q => Begun text p₀ ds.reverse q) (hrow.add hfirst) fun ds q hds => ?_
  refine .ifAccept (fun hcomma => ?_) fun _ => .pure hds
  have hds := hds.punctuator hcomma
  refine (made_declarator hg s hds.next).bind fun d r hd => .pure ?_
  show Begun text p₀ (d :: ds).reverse r
  rw [List.reverse_cons]
  exact hds.add hd

theorem made_variableStatement (word : DeclarationWord) (hp : p.token.StandsIn text)
    (hword : p.token.isPassed = true) : After (variableStatement g s word) p (Made text p) := by
  unfold variableStatement
  refine .here ((row_declarators hg s (.nil hp) hword).bind fun ds q hds => .complain ?_)
  exact hds.endStatement.bind fun _ r hr => made_node hr trivial nofun

/-! ## Parts of statements -/

theorem made_block (hp : p.token.StandsIn text) : After (block g s) p (Made text p) := by
  unfold block
  refine .here (.expect fun hopen => ?_)
  have hrow := (Row.nil hp).punctuator hopen
  refine (row_itemsUntil hrow.next fun q hq => hg.listItem s hq).bind fun items q hitems => ?_
  exact made_node (hrow.join hitems) trivial nofun

theorem row_condition (hp : p.token.StandsIn text) :
    After (condition g s) p fun e q => Begun text p [e] q := by
  unfold condition
  refine .expect fun hopen => ?_
  have hrow := (Row.nil hp).punctuator hopen
  refine (hg.expression s hrow.next).bind fun e q he => .expect fun hclose => .pure ?_
  exact (hrow.add he).punctuator hclose

/-! ## Loops -/

theorem row_optionalUpTo (close : Punctuator) (hp : p.token.StandsIn text) :
    After (optionalUpTo g s close) p fun e q => Begun text p [e] q := by
  unfold optionalUpTo
  refine .here (.ifAccept (fun hclose => .pure ?_) fun _ => ?_)
  · exact (Row.nil hp).hole.punctuator hclose
  · refine (hg.expression s hp).bind fun e q he => .expect fun hclose => .pure ?_
    exact he.row.punctuator hclose

theorem made_forTail (h : Begun text p₀ [e] p) :
    After (forTail g s p₀.token.span.start e) p (Made text p₀) := by
  unfold forTail
  refine (row_optionalUpTo hg s _ h.next).bind fun test q htest => ?_
  refine (row_optionalUpTo hg s _ htest.next).bind fun update r hupdate => ?_
  refine (hg.statement s hupdate.next).bind fun body t hbody => ?_
  exact made_node (((h.join htest).join hupdate).add hbody) trivial nofun

theorem made_forEachTail (isAwait : Bool) (h : Begun text p₀ [e] p) :
    After (forEachTail g s p₀.token.span.start isAwait e) p (Made text p₀) := by
  unfold forEachTail
  refine .atWord? (.ite (fun hin => .advance ?_) fun _ => .expectWord fun hof => ?_)
  · have h := h.word (Bool.and_eq_true_iff.1 hin).2
    refine (hg.expression s h.next).bind fun subject q hsubject => .expect fun hclose => ?_
    have hsubject := (h.add hsubject).punctuator hclose
    refine (hg.statement s hsubject.next).bind fun body r hbody => ?_
    exact made_node (hsubject.add hbody) trivial nofun
  · have h := h.word hof
    refine (hg.assignment s h.next).bind fun subject q hsubject => .expect fun hclose => ?_
    have hsubject := (h.add hsubject).punctuator hclose
    refine (hg.statement s hsubject.next).bind fun body r hbody => ?_
    exact made_node (hsubject.add hbody) trivial nofun

omit hg s in
/-- The target of a loop is read again from the expression before `in` or `of`. -/
theorem row_forEachTarget (isAwait : Bool) (first : Token) (h : Begun text p₀ [e] p) :
    After (forEachTarget isAwait first e) p fun t q => Begun text p₀ [t] q := by
  unfold forEachTarget
  refine .token ?_
  extract_lets isOf mistaken
  refine .ite (fun _ => .failAt _ _) fun _ => ?_
  split
  · next t ht =>
    exact .takeUp (.pure (h.recast (recast_of_toTarget? (allFaithful_cons.1 h.faithful).1 ht)))
  · exact .failAt _ _

omit hg s in
theorem isPassed_of_declarationWord? {t : Token} {word : DeclarationWord}
    (h : declarationWord? t = some word) : t.isPassed = true := by
  unfold declarationWord? letDeclares at h
  split at h
  · next hvar => exact isPassed_of_isWord hvar
  · split at h
    · next hconst => exact isPassed_of_isWord hconst
    · split at h
      · next hlet => exact isPassed_of_isWord (Bool.and_eq_true_iff.1 hlet).1
      · cases h

theorem made_forStatement (hp : p.token.StandsIn text) :
    After (forStatement g s) p (Made text p) := by
  unfold forStatement
  refine .here (.expectWord fun hfor => ?_)
  have hrow := (Row.nil hp).word hfor
  extract_lets head rest
  have hrest (isAwait : Bool) {q : Place} (hq : Begun text p [] q) :
      After (rest isAwait) q (Made text p) := by
    refine .expect fun hopen => .token (.ite (fun hsemicolon => ?_) fun _ => ?_)
    · have hsemicolon := (Bool.and_eq_true_iff.1 hsemicolon).1
      exact .advance (made_forTail hg s ((hq.punctuator hopen).hole.punctuator hsemicolon))
    have hrow := hq.punctuator hopen
    split
    · next word hword =>
      refine (row_declarators hg head (.nil hrow.next) (isPassed_of_declarationWord? hword)).bind ?_
      refine fun ds r hds => .bind (made_node hds trivial nofun) fun d t hd => .token ?_
      have hrow := hrow.add hd
      refine .ite (fun _ => made_forEachTail hg s _ hrow) fun _ => ?_
      exact .complain (.expect fun hsemicolon => made_forTail hg s (hrow.punctuator hsemicolon))
    · refine (hg.expression head hrow.next).bind fun e r he => .token (.ite (fun _ => ?_) fun _ => ?_)
      · refine (row_forEachTarget _ _ (hrow.add he)).bind fun target t htarget => ?_
        exact made_forEachTail hg s _ htarget
      · exact .expect fun hsemicolon => made_forTail hg s ((hrow.add he).punctuator hsemicolon)
  refine .ite (fun _ => ?_) fun _ => hrest false hrow
  exact (hrow.acceptWord _).bind fun isAwait q hq => hrest isAwait hq

/-! ## Other statements -/

theorem made_ifStatement (hp : p.token.StandsIn text) : After (ifStatement g s) p (Made text p) := by
  unfold ifStatement
  refine .here (.expectWord fun hif => ?_)
  have hrow := (Row.nil hp).word hif
  refine (row_condition hg s hrow.next).bind fun test q htest => ?_
  refine (hg.statement s htest.next).bind fun yes r hyes => ?_
  have hyes := (hrow.join htest).add hyes
  refine .ifAcceptWord (fun helse => ?_) fun _ => made_node hyes trivial nofun
  have hyes := hyes.word helse
  exact (hg.statement s hyes.next).bind fun no t hno => made_node (hyes.add hno) trivial nofun

theorem made_doWhile (hp : p.token.StandsIn text) : After (doWhile g s) p (Made text p) := by
  unfold doWhile
  refine .here (.expectWord fun hdo => ?_)
  have hrow := (Row.nil hp).word hdo
  refine (hg.statement s hrow.next).bind fun body q hbody => .expectWord fun hwhile => ?_
  have hbody := (hrow.add hbody).word hwhile
  refine (row_condition hg s hbody.next).bind fun test r htest => ?_
  refine ((hbody.join htest).accept _).bind fun _ t ht => ?_
  exact made_node ht trivial nofun

theorem made_headed (word : String) {kind : Kind} (hp : p.token.StandsIn text)
    (hfits : ∀ span cs, (Node.mk kind span cs).Fits text) (hplain : kind ≠ .restElement) :
    After (headed g s word kind) p (Made text p) := by
  unfold headed
  refine .here (.expectWord fun hword => ?_)
  have hrow := (Row.nil hp).word hword
  refine (row_condition hg s hrow.next).bind fun e q he => ?_
  refine (hg.statement s he.next).bind fun body r hbody => ?_
  exact made_node ((hrow.join he).add hbody) (hfits _ _) hplain

omit hg in
theorem made_jump {kind : Kind} (hp : p.token.StandsIn text) (hword : p.token.isPassed = true)
    (hfits : ∀ span cs, (Node.mk kind span cs).Fits text) (hplain : kind ≠ .restElement) :
    After (jump s kind) p (Made text p) := by
  unfold jump
  have hrow := (Row.nil hp).skip hword
  refine .here (.advance ?_)
  extract_lets rest
  have hrest (label : List Node) {q : Place} (hlabel : Begun text p label q) :
      After (rest label) q (Made text p) :=
    hlabel.endStatement.bind fun _ r hr => made_node hr (hfits _ _) hplain
  refine .token (.ite (fun _ => hrest _ hrow) fun _ => ?_)
  exact (made_labelName s hrow.next).bind fun n q hn => hrest _ (hrow.add hn)

theorem made_returnStatement (hp : p.token.StandsIn text) (hword : p.token.isPassed = true) :
    After (returnStatement g s) p (Made text p) := by
  unfold returnStatement
  have hrow := (Row.nil hp).skip hword
  refine .here (.complain (.advance ?_))
  extract_lets rest
  have hrest (value : List Node) {q : Place} (hvalue : Begun text p value q) :
      After (rest value) q (Made text p) :=
    hvalue.endStatement.bind fun _ r hr => made_node hr trivial nofun
  refine .token (.ite (fun _ => hrest _ hrow) fun _ => ?_)
  exact (hg.expression s hrow.next).bind fun e q he => hrest _ (hrow.add he)

theorem made_throwStatement (hp : p.token.StandsIn text) (hword : p.token.isPassed = true) :
    After (throwStatement g s) p (Made text p) := by
  unfold throwStatement
  have hrow := (Row.nil hp).skip hword
  refine .here (.advance (.token (.complain ?_)))
  refine (hg.expression s hrow.next).bind fun e q he => ?_
  exact (hrow.add he).endStatement.bind fun _ r hr => made_node hr trivial nofun

theorem made_switchCase (hp : p.token.StandsIn text) : After (switchCase g s) p (Made text p) := by
  unfold switchCase
  refine .here (((Row.nil hp).acceptWord _).bind fun isDefault q hq => ?_)
  extract_lets rest
  have hrest (test : List Node) {q : Place} (htest : Row text p test q) :
      After (rest test) q (Made text p) := by
    refine .expect fun hcolon => ?_
    refine .bind (C := fun items r => Begun text p (test ++ items) r)
      (.iterate (fun items r => Begun text p (test ++ items.reverse) r) ?_ ?_)
      fun items r hitems => made_node hitems trivial nofun
    · show Begun text p (test ++ []) _
      rw [List.append_nil]
      exact htest.punctuator hcolon
    · refine fun items r hitems => .token (.ite (fun _ => .pure hitems) fun _ => ?_)
      refine (hg.listItem s hitems.next).bind fun n t hn => .pure ?_
      show Begun text p (test ++ (n :: items).reverse) t
      rw [List.reverse_cons, ← List.append_assoc]
      exact hitems.add hn
  refine .ite (fun _ => hrest _ hq) fun _ => .expectWord fun hcase => ?_
  have hrow := hq.word hcase
  exact (hg.expression s hrow.next).bind fun e r he => hrest _ (hrow.add he).toRow

theorem made_switchStatement (hp : p.token.StandsIn text) :
    After (switchStatement g s) p (Made text p) := by
  unfold switchStatement
  refine .here (.expectWord fun hswitch => ?_)
  have hrow := (Row.nil hp).word hswitch
  refine (row_condition hg s hrow.next).bind fun subject q hsubject => .expect fun hopen => ?_
  have hrow := (hrow.join hsubject).punctuator hopen
  refine (row_itemsUntil hrow.next fun r hr => made_switchCase hg s hr).bind fun cases r hcases => ?_
  exact made_node (hrow.join hcases) trivial nofun

theorem made_catchClause (hp : p.token.StandsIn text) : After (catchClause g s) p (Made text p) := by
  unfold catchClause
  refine .here (.expectWord fun hcatch => ?_)
  have hrow := (Row.nil hp).word hcatch
  refine .ifAccept (fun hopen => ?_) fun _ => ?_
  · have hrow := hrow.punctuator hopen
    refine (made_bindingTarget hg s hrow.next).bind fun d q hd => .expect fun hclose => ?_
    have hrow := (hrow.add hd).punctuator hclose
    exact (made_block hg s hrow.next).bind fun body r hbody => made_node (hrow.add hbody) trivial nofun
  · exact (made_block hg s hrow.next).bind fun body r hbody => made_node (hrow.add hbody) trivial nofun

theorem made_tryStatement (hp : p.token.StandsIn text) :
    After (tryStatement g s) p (Made text p) := by
  unfold tryStatement
  refine .here (.expectWord fun htry => ?_)
  have hrow := (Row.nil hp).word htry
  refine (made_block hg s hrow.next).bind fun body q hbody => ?_
  have hbody : Begun text p [body] q := hrow.add hbody
  extract_lets rest
  have hrest (handler : List Node) {q : Place} (hhandler : Begun text p (body :: handler) q) :
      After (rest handler) q (Made text p) := by
    show After (Reader.acceptWord _ >>= _) q _
    refine (hhandler.acceptWord _).bind fun hasFinalizer r hr => ?_
    extract_lets finish
    have hfinish (finalizer : List Node) {t : Place}
        (hfinalizer : Begun text p (body :: (handler ++ finalizer)) t) :
        After (finish finalizer) t (Made text p) := .complain (made_node hfinalizer trivial nofun)
    refine .ite (fun _ => ?_) fun _ => hfinish _ (by rwa [List.append_nil])
    refine (made_block hg s hr.next).bind fun b t hb => hfinish _ ?_
    exact hr.add hb
  refine .ifAtWord (fun _ => ?_) fun _ => hrest _ hbody
  exact (made_catchClause hg s hbody.next).bind fun c r hc => hrest _ (hbody.add hc)

theorem made_expressionStatement (hp : p.token.StandsIn text) :
    After (expressionStatement g s) p (Made text p) := by
  unfold expressionStatement
  refine .here ((made_expression hg s hp).bind fun e q he => ?_)
  exact he.row.endStatement.bind fun _ r hr => made_node hr trivial nofun

/-! ## Modules -/

omit hg s

theorem made_moduleName (hp : p.token.StandsIn text) : After moduleName p (Made text p) := by
  unfold moduleName
  refine .token ?_
  split
  · next raw value legacy hlexeme =>
    refine .advance (.pure (made_leaf hp ?_ trivial))
    rw [hlexeme]
    simp [Kind.spells]
  · exact .fail _

theorem made_exportedName (hp : p.token.StandsIn text) :
    After exportedName p fun n q => Made text p n q
      ∧ ∀ x, p.token.name? = some x → n = .mk (.propertyName x) p.token.span [] := by
  unfold exportedName
  refine .token ?_
  split
  · next hstring =>
    refine (made_moduleName hp).mono fun n q hn => ⟨hn, fun x hx => ?_⟩
    obtain ⟨escaped, hname⟩ := lexeme_of_name? hx
    rw [hstring] at hname
    cases hname
  · exact made_propertyName hp

theorem made_importAttribute (hp : p.token.StandsIn text) :
    After importAttribute p (Made text p) := by
  unfold importAttribute
  refine .here ((made_exportedName hp).bind fun key q ⟨hkey, _⟩ => .expect fun hcolon => ?_)
  have hrow := hkey.row.punctuator hcolon
  exact (made_moduleName hrow.next).bind fun value r hvalue => made_node (hrow.add hvalue) trivial nofun

theorem row_moduleSource (hp : p.token.StandsIn text) :
    After moduleSource p fun ns q => Begun text p ns q := by
  unfold moduleSource
  refine (made_moduleName hp).bind fun source q hsource => .ifAcceptWord (fun hwith => ?_) fun _ => ?_
  · refine .expect fun hopen => ?_
    have hrow := (hsource.row.word hwith).punctuator hopen
    refine (row_commaList hrow.next fun r hr => ?_).bind fun r t hr => .pure (hrow.join hr)
    exact (made_importAttribute hr).mono fun n t hn => hn.row.toRow
  · exact .pure hsource.row

theorem made_importSpecifier (s : Setting) (hp : p.token.StandsIn text) :
    After (importSpecifier s) p (Made text p) := by
  unfold importSpecifier
  refine .here (.token ((made_exportedName hp).bind fun imported q ⟨himported, hname⟩ => ?_))
  refine .ifAcceptWord (fun has => ?_) fun _ => ?_
  · have hrow := himported.row.word has
    exact (made_bindingName s hrow.next).bind fun name r hname =>
      made_node (hrow.add hname) trivial nofun
  · split
    · next name hvariable =>
      -- a name alone stands for what is imported and is declared
      cases hname name (name?_of_variableIn? s hvariable)
      exact made_node (himported.row.again rfl trivial) trivial nofun
    · exact .fail _

theorem row_importNames (s : Setting) (h : Begun text p₀ ns p) :
    After (importNames s) p fun ms q => Begun text p₀ (ns ++ ms) q := by
  unfold importNames
  refine .ifAccept (fun hstar => .expectWord fun has => ?_) fun _ => .expect fun hopen => ?_
  · have hrow := (h.punctuator hstar).word has
    exact (made_bindingName s hrow.next).bind fun name q hname => .pure (hrow.add hname)
  · have hrow := h.punctuator hopen
    refine (row_commaList hrow.next fun q hq => ?_).bind fun r q hr => .pure (hrow.join hr)
    exact (made_importSpecifier s hq).mono fun n r hn => hn.row.toRow

theorem made_importDeclaration (s : Setting) (hp : p.token.StandsIn text) :
    After (importDeclaration s) p (Made text p) := by
  unfold importDeclaration
  refine .here (.expectWord fun himport => ?_)
  have hrow := (Row.nil hp).word himport
  extract_lets rest
  have hrest (names : List Node) {q : Place} (hnames : Begun text p names q) :
      After (rest names) q (Made text p) := by
    refine (row_moduleSource hnames.next).bind fun source r hsource => ?_
    exact (hnames.join hsource).endStatement.bind fun _ t ht => made_node ht trivial nofun
  refine .token ?_
  split
  · exact hrest _ hrow
  · refine (made_bindingName s hrow.next).bind fun name q hname => ?_
    have hname : Begun text p [name] q := hrow.add hname
    refine .bind (C := fun _ r => Begun text p [name] r) (hname.accept _) fun hasMore r hr => ?_
    extract_lets finish
    have hfinish (more : List Node) {t : Place} (hmore : Begun text p ([name] ++ more) t) :
        After (finish more) t (Made text p) := .expectWord fun hfrom => hrest _ (hmore.word hfrom)
    refine .ite (fun _ => ?_) fun _ => hfinish _ hr
    exact (row_importNames s hr).bind fun more t hmore => hfinish _ hmore
  · refine (row_importNames s hrow).bind fun names q hnames => .expectWord fun hfrom => ?_
    exact hrest _ (hnames.word hfrom)

theorem made_exportSpecifier (hp : p.token.StandsIn text) :
    After exportSpecifier p (Made text p) := by
  unfold exportSpecifier
  refine .here ((made_exportedName hp).bind fun name q ⟨hname, _⟩ => ?_)
  refine .ifAcceptWord (fun has => ?_) fun _ => ?_
  · have hrow := hname.row.word has
    refine (made_exportedName hrow.next).bind fun exported r ⟨hexported, _⟩ => ?_
    exact made_node (hrow.add hexported) trivial nofun
  · exact made_node hname.row trivial nofun

include hg

theorem row_exportedDefault (s : Setting) (hp : p.token.StandsIn text) :
    After (exportedDefault g s) p fun e q => Begun text p [e] q := by
  unfold exportedDefault
  have hrow := Row.nil hp
  refine .token (.ite (fun _ => ?_) fun _ => .ite (fun _ => ?_) fun _ => ?_)
  · exact (made_functionFrom hg s _ _ _ hrow).mono fun n q hn => hn.row
  · exact (made_classFrom hg s _ _ hp).mono fun n q hn => hn.row
  refine .ite (fun hasync => ?_) fun _ => ?_
  · have hasync : p.token.isWord "async" :=
      (Bool.and_eq_true_iff.1 (Bool.and_eq_true_iff.1 hasync).1).1
    exact .advance ((made_functionFrom hg s _ _ _ (hrow.word hasync).toRow).mono fun n q hn => hn.row)
  · refine (hg.assignment s hp).bind fun e q he => ?_
    exact he.row.endStatement.bind fun _ r hr => .pure hr

theorem made_exportDeclaration (s : Setting) (hp : p.token.StandsIn text) :
    After (exportDeclaration g s) p (Made text p) := by
  unfold exportDeclaration
  refine .here (.expectWord fun hexport => ?_)
  have hrow := (Row.nil hp).word hexport
  refine .ifAcceptWord (fun hdefault => ?_) fun _ => .ifAccept (fun hstar => ?_) fun _ => ?_
  · have hrow := hrow.word hdefault
    refine (row_exportedDefault hg s hrow.next).bind fun e q he => ?_
    exact made_node (hrow.join he) trivial nofun
  · extract_lets rest
    have hrest (name : List Node) {q : Place} (hname : Begun text p name q) :
        After (rest name) q (Made text p) := by
      refine .expectWord fun hfrom => ?_
      have hname := hname.word hfrom
      refine (row_moduleSource hname.next).bind fun source r hsource => ?_
      exact (hname.join hsource).endStatement.bind fun _ t ht => made_node ht trivial nofun
    have hrow := hrow.punctuator hstar
    refine .ifAcceptWord (fun has => ?_) fun _ => hrest _ hrow
    have hrow := hrow.word has
    exact (made_exportedName hrow.next).bind fun n q ⟨hn, _⟩ => hrest _ (hrow.add hn)
  · refine .ifAccept (fun hopen => ?_) fun _ => .token (.ite (fun _ => ?_) fun _ => .fail _)
    · have hrow := hrow.punctuator hopen
      refine (row_commaList hrow.next fun q hq => ?_).bind fun r q hnames => ?_
      · exact (made_exportSpecifier hq).mono fun n r hn => hn.row.toRow
      · obtain ⟨names, comma⟩ := r
        have hnames : Begun text p names q := hrow.join hnames
        refine .bind (C := fun _ r => Begun text p names r) (hnames.acceptWord _) fun isFrom r hr => ?_
        extract_lets finish
        have hfinish (source : List Node) {t : Place} (hsource : Begun text p (names ++ source) t) :
            After (finish source) t (Made text p) :=
          hsource.endStatement.bind fun _ u hu => made_node hu trivial nofun
        refine .ite (fun _ => ?_) fun _ => .ite (fun _ => ?_) fun _ => ?_
        · exact (row_moduleSource hr.next).bind fun source t hsource => hfinish _ (hr.join hsource)
        · exact hfinish _ (by rwa [List.append_nil])
        · exact .bind (After.fail (C := fun _ _ => False) _) fun _ _ h => h.elim
    · exact (hg.listItem s hrow.next).bind fun d q hd => made_node (hrow.add hd) trivial nofun

/-! ## Statements and declarations -/

theorem made_labeled (s : Setting) (hp : p.token.StandsIn text) :
    After (labeled g s) p (Made text p) := by
  unfold labeled
  refine .here ((made_labelName s hp).bind fun label q hlabel => .expect fun hcolon => ?_)
  have hrow := hlabel.row.punctuator hcolon
  exact (hg.statement s hrow.next).bind fun body r hbody => made_node (hrow.add hbody) trivial nofun

theorem made_declaration (s : Setting) (hp : p.token.StandsIn text) :
    After (declaration g s) p (Made text p) := by
  unfold declaration
  refine .token (.ite (fun hasync => ?_) fun _ => ?_)
  · have hasync : p.token.isWord "async" :=
      (Bool.and_eq_true_iff.1 (Bool.and_eq_true_iff.1 hasync).1).1
    exact .advance (made_functionFrom hg s _ _ _ ((Row.nil hp).word hasync).toRow)
  refine .ite (fun _ => made_classFrom hg s _ _ hp) fun _ => ?_
  refine .ite (fun hconst => made_variableStatement hg s _ hp (isPassed_of_isWord hconst)) fun _ => ?_
  refine .ite (fun hlet => made_variableStatement hg s _ hp (isPassed_of_isWord hlet)) fun _ => ?_
  exact made_functionFrom hg s _ _ _ (.nil hp)

theorem made_embeddedDeclaration (s : Setting) (hp : p.token.StandsIn text) :
    After (embeddedDeclaration g s) p (Made text p) := by
  unfold embeddedDeclaration
  exact (made_declaration hg s hp).bind fun d q hd => .complain (.pure hd)

theorem made_wordStatement (s : Setting) {word : String} (hp : p.token.StandsIn text)
    (hlexeme : p.token.lexeme = .name word false) :
    After (wordStatement g s p.token word) p (Made text p) := by
  have hword := isPassed_of_isWord (isWord_of_lexeme hlexeme)
  unfold wordStatement
  refine .ite (fun _ => made_variableStatement hg s _ hp hword) fun _ => ?_
  refine .ite (fun _ => made_ifStatement hg s hp) fun _ => ?_
  refine .ite (fun _ => made_forStatement hg s hp) fun _ => ?_
  refine .ite (fun _ => made_headed hg s _ hp (fun _ _ => trivial) (by simp)) fun _ => ?_
  refine .ite (fun _ => made_doWhile hg s hp) fun _ => ?_
  refine .ite (fun _ => made_jump s hp hword (fun _ _ => trivial) (by simp)) fun _ => ?_
  refine .ite (fun _ => made_jump s hp hword (fun _ _ => trivial) (by simp)) fun _ => ?_
  refine .ite (fun _ => made_returnStatement hg s hp hword) fun _ => ?_
  refine .ite (fun _ => made_headed hg s _ hp (fun _ _ => trivial) (by simp)) fun _ => ?_
  refine .ite (fun _ => made_switchStatement hg s hp) fun _ => ?_
  refine .ite (fun _ => made_throwStatement hg s hp hword) fun _ => ?_
  refine .ite (fun _ => made_tryStatement hg s hp) fun _ => ?_
  refine .ite (fun _ => ?_) fun _ => ?_
  · refine .advance (((Row.nil hp).skip hword).endStatement.bind fun _ q hq => ?_)
    exact made_node hq trivial nofun
  exact .ite (fun _ => made_embeddedDeclaration hg s hp) fun _ => made_expressionStatement hg s hp

theorem made_statement (s : Setting) (hp : p.token.StandsIn text) :
    After (statement g s) p (Made text p) := by
  unfold statement
  refine .token ?_
  split
  · exact made_block hg s hp
  · next hsemicolon =>
    have hpassed := isPassed_of_isPunctuator (isPunctuator_of_lexeme hsemicolon)
    exact .advance (.pure (made_skipped hp hpassed trivial nofun))
  · next word escaped hlexeme =>
    refine .ite (fun _ => made_labeled hg s hp) fun _ => ?_
    refine .ite (fun _ => made_expressionStatement hg s hp) fun hescaped => ?_
    rw [Bool.eq_false_iff.2 hescaped] at hlexeme
    exact made_wordStatement hg s hp hlexeme
  · exact made_expressionStatement hg s hp

theorem made_listItem (s : Setting) (hp : p.token.StandsIn text) :
    After (listItem g s) p (Made text p) := by
  unfold listItem
  refine .token (.ite (fun _ => made_declaration hg s hp) fun _ => ?_)
  refine .ite (fun _ => made_importDeclaration s hp) fun _ => ?_
  exact .ite (fun _ => made_exportDeclaration hg s hp) fun _ => made_statement hg s hp

/-! ## Scripts -/

omit hg

/-- The productions make trees from their tokens at every depth. -/
theorem makes_upTo (text : List Char) (depth : Nat) : (Rules.upTo depth).Makes text := by
  induction depth with
  | zero =>
    exact {
      expression := fun _ _ _ => .fail _
      assignment := fun _ _ _ => .fail _
      unary := fun _ _ _ => .fail _
      binary := fun _ _ _ _ => .fail _
      member := fun _ _ _ _ => .fail _
      bindingTarget := fun _ _ _ => .fail _
      statement := fun _ _ _ => .fail _
      listItem := fun _ _ _ => .fail _ }
  | succ depth ih =>
    exact {
      expression := fun s _ hp => made_expression ih s hp
      assignment := fun s _ hp => made_assignment ih s hp
      unary := fun s _ hp => made_unary ih s hp
      binary := fun s level _ hp => made_binary ih s level hp
      member := fun s calls _ hp => made_member ih s calls hp
      bindingTarget := fun s _ hp => made_bindingTarget ih s hp
      statement := fun s _ hp => made_statement ih s hp
      listItem := fun s _ hp => made_listItem ih s hp }

/-- A script begins where its text does, and holds a row up to the end. -/
theorem row_program (hg : g.Makes text) (hp : p.token.StandsIn text) :
    After (program g text) p fun n q => n.kind = .program ∧ n.span.start = 0
      ∧ Row text p n.children q ∧ q.token.lexeme = .endOfText := by
  unfold program
  refine (row_bodyItems hg _ _ hp).bind fun items q ⟨hitems, hend⟩ => .pure ?_
  exact ⟨rfl, rfl, hitems, beq_iff_eq.1 hend⟩

theorem exists_row_of_parse {n : Node} (h : parse text = .ok n) :
    n.kind = .program ∧ n.span.start = 0
      ∧ ∃ p q, p.token = firstToken text ∧ Row text p n.children q ∧ q.token.lexeme = .endOfText := by
  obtain ⟨q, hq⟩ := exists_program h
  obtain ⟨hkind, hstart, hrow, hend⟩ :=
    row_program (makes_upTo text _) (standsIn_firstToken text) _ n q hq
  exact ⟨hkind, hstart, _, q, rfl, hrow, hend⟩

/-- **Every script is made from its tokens.** The tree is in shape and keeps the tokens from the first
one of the text to its end. -/
theorem row_of_parse {n : Node} (h : parse text = .ok n) :
    ∃ p q, p.token = firstToken text ∧ Keeping text p [n] q ∧ q.token.lexeme = .endOfText := by
  obtain ⟨hkind, hstart, p, q, hp, hrow, hend⟩ := exists_row_of_parse h
  obtain ⟨kind, span, items⟩ := n
  cases hkind
  obtain ⟨ts, hpassage, hkept⟩ := hrow.passage
  refine ⟨p, q, hp, ⟨hrow.standsIn, ?_, ts, hpassage, fun t ht hk => ?_⟩, hend⟩
  · exact allFaithful_one (hrow.faithful.node hstart nofun)
  · exact (hkept t ht hk).nest

/-- **A script keeps its tokens.** It is read from a row of them, and each one that must be kept is a node
of it. -/
theorem tokens_of_parse {n : Node} (h : parse text = .ok n) :
    ∃ ts, TokensFrom (firstToken text) ts
      ∧ ∀ t ∈ ts, t.isKept →
        ∃ leaf ∈ n.preorder, leaf.span = t.span ∧ leaf.kind.spells t.lexeme := by
  obtain ⟨p, q, hp, hrow, hend⟩ := row_of_parse h
  obtain ⟨ts, hpassage, hkept⟩ := hrow.passage
  have htokens := hpassage.tokensFrom (.endOfText hend)
  rw [List.append_nil, hp] at htokens
  refine ⟨ts, htokens, fun t ht hkeep => ?_⟩
  obtain ⟨root, hroot, leaf, hleaf, hspells⟩ := hkept t ht hkeep
  cases List.mem_singleton.1 hroot
  exact ⟨leaf, hleaf, hspells⟩

/-- The nodes of a script begin in order. -/
theorem ordered_of_parse {n : Node} (h : parse text = .ok n) : ∃ hi, Ordered 0 [n] hi := by
  obtain ⟨-, hstart, p, q, -, hrow, -⟩ := exists_row_of_parse h
  obtain ⟨kind, span, items⟩ := n
  have hstart : span.start = 0 := hstart
  have hitems : Ordered span.start items q.token.span.start :=
    hrow.ordered.from_le (hstart.symm ▸ Nat.zero_le p.token.span.start)
  exact ⟨_, hitems.nest (Nat.zero_le _)⟩

theorem faithful_of_parse {n : Node} (h : parse text = .ok n) : n.Faithful text := by
  obtain ⟨p, q, -, hrow, -⟩ := row_of_parse h
  exact (allFaithful_cons.1 hrow.faithful).1

end EditionCheck.Script
