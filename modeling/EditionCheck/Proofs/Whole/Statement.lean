import EditionCheck.Proofs.Whole.Operation
import EditionCheck.Script.Program

/-!
# Scripts leave assignment patterns in their places

The productions for statements and declarations give trees in order; the head of a loop over keys or
values is the one place among them where an assignment pattern may stand. By induction on the depth to
which productions are nested, so does the whole grammar.

* `target_forEachTarget`, `whole_forEachTail` — the heads of loops;
* `whole_statement`, `whole_listItem` — all statements and declarations;
* `sound_upTo` — the productions that refer back, at every depth;
* `whole_of_parse` — every script that can be parsed is a tree in order.
-/

set_option autoImplicit false

namespace EditionCheck.Script

open EditionCheck.Text Reader Node

variable {g : Rules} (hg : g.Sound) (s : Setting)
include hg

/-! ## Declarations -/

theorem whole_declarator : Yields (declarator g s) Whole := by
  unfold declarator
  refine (whole_bindingTarget hg s).bind fun p hp => .skip fun hasValue => ?_
  split
  · exact (hg.assignment s).bind fun value hvalue => whole_node rfl (allWhole_two hp hvalue)
  · exact .pure ((allWhole_one hp).whole rfl)

theorem allWhole_declarators : Yields (declarators g s) AllWhole := by
  unfold declarators
  refine .skip fun _ => (whole_declarator hg s).bind fun first hfirst => ?_
  refine .iterate AllWhole (allWhole_one hfirst) fun ds hds => .skip fun more => ?_
  split
  · exact (whole_declarator hg s).bind fun d hd => .pure (allWhole_cons.2 ⟨hd, hds⟩)
  · exact .pure hds.reverse

theorem whole_variableStatement (word : DeclarationWord) :
    Yields (variableStatement g s word) Whole := by
  unfold variableStatement
  refine .skip fun start => (allWhole_declarators hg s).bind fun ds hds => ?_
  exact .skip fun _ => .skip fun _ => whole_node rfl hds

/-! ## Parts of statements -/

theorem whole_block : Yields (block g s) Whole := by
  unfold block
  refine .skip fun start => .skip fun _ => ?_
  exact (Yields.itemsUntil _ (hg.listItem s)).bind fun items hitems => whole_node rfl hitems

theorem whole_condition : Yields (condition g s) Whole := by
  unfold condition
  exact .skip fun _ => (hg.expression s).bind fun e he => .skip fun _ => .pure he

/-! ## Loops -/

theorem whole_optionalUpTo (close : Punctuator) : Yields (optionalUpTo g s close) Whole := by
  unfold optionalUpTo
  refine .skip fun start => .skip fun isMissing => ?_
  split
  · exact .pure (allWhole_nil.whole rfl)
  · exact (hg.expression s).bind fun e he => .skip fun _ => .pure he

theorem whole_forTail (start : Nat) {first : Node} (hfirst : first.Whole) :
    Yields (forTail g s start first) Whole := by
  unfold forTail
  refine (whole_optionalUpTo hg s _).bind fun test htest => ?_
  refine (whole_optionalUpTo hg s _).bind fun update hupdate => ?_
  refine (hg.statement s).bind fun body hbody => whole_node rfl ?_
  exact allWhole_cons.2 ⟨hfirst, allWhole_three htest hupdate hbody⟩

/-- A loop over keys or values has its pattern, if it has one, as its first child. -/
theorem whole_forEachTail (start : Nat) (isAwait : Bool) {target : Node} (htarget : target.Target) :
    Yields (forEachTail g s start isAwait target) Whole := by
  have hloop {kind : Kind} (hk : kind.assigns) {subject body : Node} (hsubject : subject.Whole)
      (hbody : body.Whole) : Yields (node start kind [target, subject, body]) Whole :=
    .node fun _ => htarget.whole (allWhole_two hsubject hbody) hk
  unfold forEachTail
  refine .skip fun isIn => ?_
  split
  · refine .skip fun _ => (hg.expression s).bind fun subject hsubject => .skip fun _ => ?_
    exact (hg.statement s).bind fun body hbody => hloop rfl hsubject hbody
  · refine .skip fun _ => (hg.assignment s).bind fun subject hsubject => .skip fun _ => ?_
    exact (hg.statement s).bind fun body hbody => hloop rfl hsubject hbody

omit hg in
/-- What stands in front of `in` or `of` is read as a pattern or is no part of one. -/
theorem target_forEachTarget (isAwait : Bool) (first : Token) {e : Node} (he : e.Whole) :
    Yields (forEachTarget isAwait first e) Target := by
  unfold forEachTarget
  refine .skip fun t => ?_
  extract_lets isOf mistaken
  split
  · exact .failAt _ _
  · next hplaced =>
    have hne : e.kind ≠ .assignment .assign := by
      intro h
      simp [h] at hplaced
    split
    · next ht => exact .skip fun _ => .pure (target_of_toTarget? he hne ht)
    · exact .failAt _ _

theorem whole_forStatement : Yields (forStatement g s) Whole := by
  unfold forStatement
  refine .skip fun start => .skip fun _ => ?_
  extract_lets head rest
  have hrest (isAwait : Bool) : Yields (rest isAwait) Whole := by
    refine .skip fun _ => .skip fun t => ?_
    split
    · exact .skip fun _ => whole_forTail hg s _ (allWhole_nil.whole rfl)
    · split
      · refine (allWhole_declarators hg head).bind fun ds hds => ?_
        refine (whole_node rfl hds).bind fun d hd => .skip fun next => ?_
        split
        · exact whole_forEachTail hg s _ _ hd.target
        · exact .skip fun _ => .skip fun _ => whole_forTail hg s _ hd
      · refine (hg.expression head).bind fun e he => .skip fun next => ?_
        split
        · refine (target_forEachTarget _ _ he).bind fun target htarget => ?_
          exact whole_forEachTail hg s _ _ htarget
        · exact .skip fun _ => whole_forTail hg s _ he
  split
  · exact .skip fun isAwait => hrest isAwait
  · exact hrest false

/-! ## Other statements -/

theorem whole_ifStatement : Yields (ifStatement g s) Whole := by
  unfold ifStatement
  refine .skip fun start => .skip fun _ => (whole_condition hg s).bind fun test htest => ?_
  refine (hg.statement s).bind fun yes hyes => .skip fun hasElse => ?_
  split
  · refine (hg.statement s).bind fun no hno => ?_
    exact whole_node rfl (allWhole_three htest hyes hno)
  · exact whole_node rfl (allWhole_two htest hyes)

theorem whole_doWhile : Yields (doWhile g s) Whole := by
  unfold doWhile
  refine .skip fun start => .skip fun _ => (hg.statement s).bind fun body hbody => ?_
  refine .skip fun _ => (whole_condition hg s).bind fun test htest => ?_
  exact .skip fun _ => whole_node rfl (allWhole_two hbody htest)

theorem whole_headed (word : String) {kind : Kind} (hk : kind.isTargetPart = false) :
    Yields (headed g s word kind) Whole := by
  unfold headed
  refine .skip fun start => .skip fun _ => (whole_condition hg s).bind fun e he => ?_
  exact (hg.statement s).bind fun body hbody => whole_node hk (allWhole_two he hbody)

omit hg in
theorem whole_jump {kind : Kind} (hk : kind.isTargetPart = false) : Yields (jump s kind) Whole := by
  unfold jump
  refine .skip fun start => .skip fun _ => ?_
  extract_lets rest
  have hrest (label : List Node) (hlabel : AllWhole label) : Yields (rest label) Whole :=
    .skip fun _ => whole_node hk hlabel
  refine .skip fun t => ?_
  split
  · exact hrest _ allWhole_nil
  · exact (whole_labelName s).bind fun n hn => hrest _ (allWhole_one hn)

theorem whole_returnStatement : Yields (returnStatement g s) Whole := by
  unfold returnStatement
  refine .skip fun start => .skip fun _ => .skip fun _ => ?_
  extract_lets rest
  have hrest (value : List Node) (hvalue : AllWhole value) : Yields (rest value) Whole :=
    .skip fun _ => whole_node rfl hvalue
  refine .skip fun t => ?_
  split
  · exact hrest _ allWhole_nil
  · exact (hg.expression s).bind fun e he => hrest _ (allWhole_one he)

theorem whole_throwStatement : Yields (throwStatement g s) Whole := by
  unfold throwStatement
  refine .skip fun start => .skip fun _ => .skip fun t => .skip fun _ => ?_
  refine (hg.expression s).bind fun e he => ?_
  exact .skip fun _ => whole_node rfl (allWhole_one he)

theorem whole_switchCase : Yields (switchCase g s) Whole := by
  unfold switchCase
  refine .skip fun start => .skip fun isDefault => ?_
  extract_lets rest
  have hrest (test : List Node) (htest : AllWhole test) : Yields (rest test) Whole := by
    refine .skip fun _ => ?_
    refine Yields.bind (P := AllWhole) (.iterate AllWhole allWhole_nil fun items hitems => ?_)
      fun items hitems => whole_node rfl (allWhole_append.2 ⟨htest, hitems⟩)
    refine .skip fun t => ?_
    split
    · exact .pure hitems.reverse
    · exact (hg.listItem s).bind fun n hn => .pure (allWhole_cons.2 ⟨hn, hitems⟩)
  split
  · exact hrest _ allWhole_nil
  · exact .skip fun _ => (hg.expression s).bind fun e he => hrest _ (allWhole_one he)

theorem whole_switchStatement : Yields (switchStatement g s) Whole := by
  unfold switchStatement
  refine .skip fun start => .skip fun _ => (whole_condition hg s).bind fun subject hsubject => ?_
  refine .skip fun _ => (Yields.itemsUntil _ (whole_switchCase hg s)).bind fun cases hcases => ?_
  exact whole_node rfl (allWhole_cons.2 ⟨hsubject, hcases⟩)

theorem whole_catchClause : Yields (catchClause g s) Whole := by
  unfold catchClause
  refine .skip fun start => .skip fun _ => .skip fun hasParameter => ?_
  split
  · refine (whole_bindingTarget hg s).bind fun p hp => .skip fun _ => ?_
    exact (whole_block hg s).bind fun body hbody => whole_node rfl (allWhole_two hp hbody)
  · exact (whole_block hg s).bind fun body hbody => whole_node rfl (allWhole_one hbody)

theorem whole_tryStatement : Yields (tryStatement g s) Whole := by
  unfold tryStatement
  refine .skip fun start => .skip fun _ => (whole_block hg s).bind fun body hbody => ?_
  extract_lets rest
  have hrest (handler : List Node) (hhandler : AllWhole handler) : Yields (rest handler) Whole := by
    refine .skip fun hasFinalizer => ?_
    extract_lets finish
    have hfinish (finalizer : List Node) (hfinalizer : AllWhole finalizer) :
        Yields (finish finalizer) Whole := by
      refine .skip fun _ => ?_
      exact whole_node rfl (allWhole_cons.2 ⟨hbody, allWhole_append.2 ⟨hhandler, hfinalizer⟩⟩)
    split
    · exact (whole_block hg s).bind fun b hb => hfinish _ (allWhole_one hb)
    · exact hfinish _ allWhole_nil
  refine .skip fun hasHandler => ?_
  split
  · exact (whole_catchClause hg s).bind fun c hc => hrest _ (allWhole_one hc)
  · exact hrest _ allWhole_nil

theorem whole_expressionStatement : Yields (expressionStatement g s) Whole := by
  unfold expressionStatement
  refine .skip fun start => (whole_expression hg s).bind fun e he => ?_
  exact .skip fun _ => whole_node rfl (allWhole_one he)

/-! ## Modules -/

omit hg

theorem whole_moduleName : Yields moduleName Whole := by
  unfold moduleName
  refine .skip fun t => ?_
  split
  · exact .skip fun _ => .pure (allWhole_nil.whole rfl)
  · exact .fail _

theorem whole_exportedName : Yields exportedName Whole := by
  unfold exportedName
  refine .skip fun t => ?_
  split
  · exact whole_moduleName
  · exact whole_propertyName

theorem whole_importAttribute : Yields importAttribute Whole := by
  unfold importAttribute
  refine .skip fun start => whole_exportedName.bind fun key hkey => .skip fun _ => ?_
  exact whole_moduleName.bind fun value hvalue => whole_node rfl (allWhole_two hkey hvalue)

theorem allWhole_moduleSource : Yields moduleSource AllWhole := by
  unfold moduleSource
  refine whole_moduleName.bind fun source hsource => .skip fun hasAttributes => ?_
  split
  · refine .skip fun _ => (Yields.commaList _ whole_importAttribute).bind fun r hr => ?_
    exact .pure (allWhole_cons.2 ⟨hsource, hr⟩)
  · exact .pure (allWhole_one hsource)

theorem whole_importSpecifier : Yields (importSpecifier s) Whole := by
  unfold importSpecifier
  refine .skip fun start => .skip fun t => whole_exportedName.bind fun imported himported => ?_
  refine .skip fun isRenamed => ?_
  split
  · refine (whole_bindingName s).bind fun name hname => ?_
    exact whole_node rfl (allWhole_two himported hname)
  · split
    · exact whole_node rfl (allWhole_two himported (allWhole_nil.whole rfl))
    · exact .fail _

theorem allWhole_importNames : Yields (importNames s) AllWhole := by
  unfold importNames
  refine .skip fun isAll => ?_
  split
  · exact .skip fun _ => (whole_bindingName s).bind fun name hname => .pure (allWhole_one hname)
  · refine .skip fun _ => (Yields.commaList _ (whole_importSpecifier s)).bind fun r hr => ?_
    exact .pure hr

theorem whole_importDeclaration : Yields (importDeclaration s) Whole := by
  unfold importDeclaration
  refine .skip fun start => .skip fun _ => ?_
  extract_lets rest
  have hrest (names : List Node) (hnames : AllWhole names) : Yields (rest names) Whole := by
    refine allWhole_moduleSource.bind fun source hsource => .skip fun _ => ?_
    exact whole_node rfl (allWhole_append.2 ⟨hnames, hsource⟩)
  refine .skip fun t => ?_
  split
  · exact hrest _ allWhole_nil
  · refine (whole_bindingName s).bind fun name hname => .skip fun hasMore => ?_
    extract_lets finish
    have hfinish (more : List Node) (hmore : AllWhole more) : Yields (finish more) Whole :=
      .skip fun _ => hrest _ (allWhole_cons.2 ⟨hname, hmore⟩)
    split
    · exact (allWhole_importNames s).bind fun more hmore => hfinish _ hmore
    · exact hfinish _ allWhole_nil
  · exact (allWhole_importNames s).bind fun names hnames => .skip fun _ => hrest _ hnames

theorem whole_exportSpecifier : Yields exportSpecifier Whole := by
  unfold exportSpecifier
  refine .skip fun start => whole_exportedName.bind fun name hname => .skip fun isRenamed => ?_
  split
  · refine whole_exportedName.bind fun exported hexported => ?_
    exact whole_node rfl (allWhole_two hname hexported)
  · exact whole_node rfl (allWhole_one hname)

include hg

theorem whole_exportedDefault : Yields (exportedDefault g s) Whole := by
  unfold exportedDefault
  refine .skip fun t => ?_
  split
  · exact whole_of_operand (operand_functionFrom hg s _ _ _ _)
  · split
    · exact whole_of_operand (operand_classFrom hg s _ _)
    · split
      · exact .skip fun _ => whole_of_operand (operand_functionFrom hg s _ _ _ _)
      · exact (hg.assignment s).bind fun e he => .skip fun _ => .pure he

theorem whole_exportDeclaration : Yields (exportDeclaration g s) Whole := by
  unfold exportDeclaration
  refine .skip fun start => .skip fun _ => .skip fun isDefault => ?_
  split
  · exact (whole_exportedDefault hg s).bind fun e he => whole_node rfl (allWhole_one he)
  · refine .skip fun isAll => ?_
    split
    · extract_lets rest
      have hrest (name : List Node) (hname : AllWhole name) : Yields (rest name) Whole := by
        refine .skip fun _ => allWhole_moduleSource.bind fun source hsource => .skip fun _ => ?_
        exact whole_node rfl (allWhole_append.2 ⟨hname, hsource⟩)
      refine .skip fun isNamed => ?_
      split
      · exact whole_exportedName.bind fun n hn => hrest _ (allWhole_one hn)
      · exact hrest _ allWhole_nil
    · refine .skip fun hasNames => ?_
      split
      · refine (Yields.commaList _ whole_exportSpecifier).bind fun r hnames => ?_
        obtain ⟨names, comma⟩ := r
        refine .skip fun isFrom => ?_
        extract_lets finish
        have hfinish (source : List Node) (hsource : AllWhole source) :
            Yields (finish source) Whole :=
          .skip fun _ => whole_node rfl (allWhole_append.2 ⟨hnames, hsource⟩)
        split
        · exact allWhole_moduleSource.bind fun source hsource => hfinish _ hsource
        · split
          · exact hfinish _ allWhole_nil
          · exact Yields.bind (P := AllWhole) (.fail _) fun source hsource => hfinish _ hsource
      · refine .skip fun t => ?_
        split
        · exact (hg.listItem s).bind fun d hd => whole_node rfl (allWhole_one hd)
        · exact .fail _

/-! ## Statements and declarations -/

theorem whole_labeled : Yields (labeled g s) Whole := by
  unfold labeled
  refine .skip fun start => (whole_labelName s).bind fun label hlabel => .skip fun _ => ?_
  exact (hg.statement s).bind fun body hbody => whole_node rfl (allWhole_two hlabel hbody)

theorem whole_declaration : Yields (declaration g s) Whole := by
  unfold declaration
  refine .skip fun t => ?_
  refine .ite (.skip fun _ => whole_of_operand (operand_functionFrom hg s _ _ _ _)) ?_
  refine .ite (whole_of_operand (operand_classFrom hg s _ _)) ?_
  refine .ite (whole_variableStatement hg s _) (.ite (whole_variableStatement hg s _) ?_)
  exact whole_of_operand (operand_functionFrom hg s _ _ _ _)

theorem whole_embeddedDeclaration : Yields (embeddedDeclaration g s) Whole := by
  unfold embeddedDeclaration
  exact (whole_declaration hg s).bind fun d hd => .skip fun _ => .pure hd

theorem whole_wordStatement (t : Token) (word : String) :
    Yields (wordStatement g s t word) Whole := by
  unfold wordStatement
  refine .ite (whole_variableStatement hg s _) ?_
  refine .ite (whole_ifStatement hg s) ?_
  refine .ite (whole_forStatement hg s) ?_
  refine .ite (whole_headed hg s _ rfl) ?_
  refine .ite (whole_doWhile hg s) ?_
  refine .ite (whole_jump s rfl) ?_
  refine .ite (whole_jump s rfl) ?_
  refine .ite (whole_returnStatement hg s) ?_
  refine .ite (whole_headed hg s _ rfl) ?_
  refine .ite (whole_switchStatement hg s) ?_
  refine .ite (whole_throwStatement hg s) ?_
  refine .ite (whole_tryStatement hg s) ?_
  refine .ite (.skip fun _ => .skip fun _ => whole_node rfl allWhole_nil) ?_
  exact .ite (whole_embeddedDeclaration hg s) (whole_expressionStatement hg s)

theorem whole_statement : Yields (statement g s) Whole := by
  unfold statement
  refine .skip fun t => ?_
  split
  · exact whole_block hg s
  · exact .skip fun _ => .pure (allWhole_nil.whole rfl)
  · split
    · exact whole_labeled hg s
    · split
      · exact whole_expressionStatement hg s
      · exact whole_wordStatement hg s _ _
  · exact whole_expressionStatement hg s

theorem whole_listItem : Yields (listItem g s) Whole := by
  unfold listItem
  refine .skip fun t => .ite (whole_declaration hg s) (.ite (whole_importDeclaration s) ?_)
  exact .ite (whole_exportDeclaration hg s) (whole_statement hg s)

/-! ## Scripts -/

omit hg in
/-- The productions give trees in order at every depth. -/
theorem sound_upTo (depth : Nat) : (Rules.upTo depth).Sound := by
  induction depth with
  | zero =>
    exact {
      expression := fun _ => .fail _
      assignment := fun _ => .fail _
      unary := fun _ => .fail _
      binary := fun _ _ => .fail _
      member := fun _ _ => .fail _
      bindingTarget := fun _ => .fail _
      statement := fun _ => .fail _
      listItem := fun _ => .fail _ }
  | succ depth ih =>
    exact {
      expression := fun s => whole_expression ih s
      assignment := fun s => whole_assignment ih s
      unary := fun s => whole_of_operand (operand_unary ih s)
      binary := fun s level => whole_of_operand (operand_binary ih s level)
      member := fun s calls => whole_of_operand (operand_member ih s calls)
      bindingTarget := fun s => whole_bindingTarget ih s
      statement := fun s => whole_statement ih s
      listItem := fun s => whole_listItem ih s }

theorem whole_program (text : List Char) : Yields (program g text) Whole := by
  unfold program
  exact (allWhole_bodyItems hg _ _).bind fun items hitems => .pure (hitems.whole rfl)

omit hg in
/-- **Every script is a tree in order.** Each part of an assignment pattern in it stands in another part
of the pattern, up to the pattern itself, which is the first child of an assignment or of a loop over
keys or values. -/
theorem whole_of_parse {text : List Char} {n : Node} (h : parse text = .ok n) : n.Whole := by
  obtain ⟨q, hq⟩ := exists_program h
  exact whole_program (sound_upTo (text.length + 2)) text _ _ n q hq

end EditionCheck.Script
