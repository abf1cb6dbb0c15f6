import EditionCheck.Script.Operation

/-!
# Statements

The productions for statements and declarations. A statement that ends a line may leave its semicolon
out.
-/

set_option autoImplicit false

namespace EditionCheck.Script

open EditionCheck.Text Reader

/-! ## Declarations -/

/-- Whether `let` begins a declaration, by the token behind it: a variable name or a pattern follows. -/
def letDeclares (t : Token) : Bool :=
  t.isWord "let" &&
    (t.next.name?.any (fun word => !(reservedWords.contains word)) || t.next.isPunctuator .lbracket
      || t.next.isPunctuator .lbrace)

/-- The word with which a declaration of variables begins. -/
def declarationWord? (t : Token) : Option DeclarationWord :=
  if t.isWord "var" then some .var
  else if t.isWord "const" then some .const
  else if letDeclares t then some .let
  else none

/-- Reads one declared pattern with its initial value. -/
def declarator (g : Rules) (s : Setting) : Reader Node := do
  let p ← bindingTarget g s
  if ← accept .assign then
    let value ← g.assignment s
    node p.span.start .declarator [p, value]
  else return Node.mk .declarator p.span [p]

/-- Reads the declared patterns behind a declaration word, which is taken. -/
def declarators (g : Rules) (s : Setting) : Reader (List Node) := do
  let _ ← advance
  let first ← declarator g s
  iterate (fun ds => do
    if ← accept .comma then return .inl ((← declarator g s) :: ds)
    return .inr ds.reverse) [first]

/-- Whether a declared pattern lacks an initial value that it needs: every constant does, and every
pattern that is no name. -/
def lacksInitializer (word : DeclarationWord) (d : Node) : Bool :=
  match d.children with
  | [p] => word == .const || p.variableName?.isNone
  | _ => false

/-- Puts down the declared patterns without the initial values that they need. -/
def requireInitializers (word : DeclarationWord) (ds : List Node) : Reader Unit :=
  complain .missingInitializer ((ds.filter (lacksInitializer word)).map (·.span.start))

/-- Reads a declaration of variables as a statement. -/
def variableStatement (g : Rules) (s : Setting) (word : DeclarationWord) : Reader Node := do
  let start ← here
  let ds ← declarators g s
  requireInitializers word ds
  endStatement
  node start (.variableDeclaration word) ds

/-! ## Parts of statements -/

/-- Reads statements between braces. -/
def block (g : Rules) (s : Setting) : Reader Node := do
  let start ← here
  let _ ← expect .lbrace
  let items ← itemsUntil .rbrace (g.listItem s)
  node start .block items

/-- Reads an expression in parentheses. -/
def condition (g : Rules) (s : Setting) : Reader Node := do
  let _ ← expect .lparen
  let e ← g.expression s
  let _ ← expect .rparen
  return e

/-- Whether a token may end a statement without a semicolon. -/
def endsStatement (t : Token) : Bool :=
  t.lineBefore || t.lexeme == .endOfText || t.isPunctuator .semicolon || t.isPunctuator .rbrace

/-! ## Loops -/

/-- Reads an expression up to a punctuator, which is taken, unless it is missing. -/
def optionalUpTo (g : Rules) (s : Setting) (close : Punctuator) : Reader Node := do
  let start ← here
  if ← accept close then return Node.mk .hole ⟨start, start⟩ []
  let e ← g.expression s
  let _ ← expect close
  return e

/-- Reads a loop with three parts behind its first part and the semicolon. -/
def forTail (g : Rules) (s : Setting) (start : Nat) (first : Node) : Reader Node := do
  let test ← optionalUpTo g s .semicolon
  let update ← optionalUpTo g s .rparen
  node start .forStatement [first, test, update, ← g.statement s]

/-- Reads a loop over keys or values behind its target. -/
def forEachTail (g : Rules) (s : Setting) (start : Nat) (isAwait : Bool) (target : Node) :
    Reader Node := do
  if !isAwait && (← atWord? "in") then
    let _ ← advance
    let subject ← g.expression s
    let _ ← expect .rparen
    node start .forIn [target, subject, ← g.statement s]
  else
    let _ ← expectWord "of"
    let subject ← g.assignment s
    let _ ← expect .rparen
    node start (.forOf isAwait) [target, subject, ← g.statement s]

/-- Whether a token continues a loop over keys or values. -/
def continuesForEach (t : Token) : Bool := t.isWord "in" || t.isWord "of"

/-- The target that the expression before `in` or `of` is. Before `of`, the words `let` and `async`
would be taken for something else. -/
def forEachTarget (isAwait : Bool) (first : Token) (e : Node) : Reader Node := do
  let isOf := (← token).isWord "of"
  let mistaken := isOf && (first.isWord "let"
    || (!isAwait && first.isWord "async" && e.variableName?.isSome))
  if mistaken || e.kind == .assignment .assign then failAt .invalidTarget e.span.start
  else
    match e.toTarget? with
    | some t =>
      takeUp [e] [t]
      return t
    | none => failAt .invalidTarget e.span.start

/-- Reads a `for` loop. -/
def forStatement (g : Rules) (s : Setting) : Reader Node := do
  let start ← here
  let _ ← expectWord "for"
  let isAwait ← if s.awaitExpression then acceptWord "await" else pure false
  let _ ← expect .lparen
  let t ← token
  let head : Setting := { s with inOperator := false }
  if t.isPunctuator .semicolon && !isAwait then
    let _ ← advance
    forTail g s start (Node.mk .hole ⟨t.span.start, t.span.start⟩ [])
  else
    match declarationWord? t with
    | some word =>
      let ds ← declarators g head
      let d ← node t.span.start (.variableDeclaration word) ds
      if isAwait || continuesForEach (← token) then forEachTail g s start isAwait d
      else
        requireInitializers word ds
        let _ ← expect .semicolon
        forTail g s start d
    | none =>
      let e ← g.expression head
      if isAwait || continuesForEach (← token) then
        forEachTail g s start isAwait (← forEachTarget isAwait t e)
      else
        let _ ← expect .semicolon
        forTail g s start e

/-! ## Other statements -/

/-- Reads an `if`. -/
def ifStatement (g : Rules) (s : Setting) : Reader Node := do
  let start ← here
  let _ ← expectWord "if"
  let test ← condition g s
  let yes ← g.statement s
  if ← acceptWord "else" then
    let no ← g.statement s
    node start .ifStatement [test, yes, no]
  else node start .ifStatement [test, yes]

/-- Reads a loop with its test behind the body. -/
def doWhile (g : Rules) (s : Setting) : Reader Node := do
  let start ← here
  let _ ← expectWord "do"
  let body ← g.statement s
  let _ ← expectWord "while"
  let test ← condition g s
  let _ ← accept .semicolon
  node start .doWhile [body, test]

/-- Reads a word with a parenthesized expression and a statement behind it. -/
def headed (g : Rules) (s : Setting) (word : String) (kind : Kind) : Reader Node := do
  let start ← here
  let _ ← expectWord word
  let e ← condition g s
  node start kind [e, ← g.statement s]

/-- Reads a jump with the label that may stand on its line. -/
def jump (s : Setting) (kind : Kind) : Reader Node := do
  let start ← here
  let _ ← advance
  let label ←
    if endsStatement (← token) then pure []
    else
      let n ← readVariable s .labelName
      pure [n]
  endStatement
  node start kind label

/-- Reads `return` with its value. -/
def returnStatement (g : Rules) (s : Setting) : Reader Node := do
  let start ← here
  complain .misplacedReturn (if s.returnStatement then [] else [start])
  let _ ← advance
  let value ←
    if endsStatement (← token) then pure []
    else
      let e ← g.expression s
      pure [e]
  endStatement
  node start .returnStatement value

/-- Reads `throw` with its value, which must begin on the same line. -/
def throwStatement (g : Rules) (s : Setting) : Reader Node := do
  let start ← here
  let _ ← advance
  let t ← token
  complain .unexpectedToken (if t.lineBefore then [t.span.start] else [])
  let e ← g.expression s
  endStatement
  node start .throwStatement [e]

/-- Whether a token ends the statements of a case. -/
def endsCase (t : Token) : Bool :=
  t.isWord "case" || t.isWord "default" || t.isPunctuator .rbrace

/-- Reads a case of a `switch`. -/
def switchCase (g : Rules) (s : Setting) : Reader Node := do
  let start ← here
  let isDefault ← acceptWord "default"
  let test ←
    if isDefault then pure []
    else
      let _ ← expectWord "case"
      let e ← g.expression s
      pure [e]
  let _ ← expect .colon
  let items ← iterate (fun items => do
    if endsCase (← token) then return .inr items.reverse
    return .inl ((← g.listItem s) :: items)) []
  node start (.switchCase isDefault) (test ++ items)

/-- Reads a `switch`. -/
def switchStatement (g : Rules) (s : Setting) : Reader Node := do
  let start ← here
  let _ ← expectWord "switch"
  let subject ← condition g s
  let _ ← expect .lbrace
  let cases ← itemsUntil .rbrace (switchCase g s)
  node start .switchStatement (subject :: cases)

/-- Reads the clause that handles a thrown value. -/
def catchClause (g : Rules) (s : Setting) : Reader Node := do
  let start ← here
  let _ ← expectWord "catch"
  if ← accept .lparen then
    let p ← bindingTarget g s
    let _ ← expect .rparen
    node start (.catchClause true) [p, ← block g s]
  else node start (.catchClause false) [← block g s]

/-- Reads a `try`, which needs one of its two clauses. -/
def tryStatement (g : Rules) (s : Setting) : Reader Node := do
  let start ← here
  let _ ← expectWord "try"
  let body ← block g s
  let handler ←
    if ← atWord? "catch" then
      let c ← catchClause g s
      pure [c]
    else pure []
  let finalizer ←
    if ← acceptWord "finally" then
      let b ← block g s
      pure [b]
    else pure []
  complain .unexpectedToken (if handler.isEmpty && finalizer.isEmpty then [body.span.stop] else [])
  node start .tryStatement (body :: (handler ++ finalizer))

/-- Reads an expression that stands as a statement. -/
def expressionStatement (g : Rules) (s : Setting) : Reader Node := do
  let start ← here
  let e ← expression g s
  endStatement
  node start .expressionStatement [e]

/-! ## Modules -/

/-- Reads a string. -/
def moduleName : Reader Node := do
  let t ← token
  match t.lexeme with
  | .string _ value legacy =>
    let _ ← advance
    return Node.mk (.stringLiteral value legacy) t.span []
  | _ => fail .unexpectedToken

/-- Reads a name that a module gives or takes: a word or a string. -/
def exportedName : Reader Node := do
  match (← token).lexeme with
  | .string _ _ _ => moduleName
  | _ => propertyName

/-- Reads one attribute of an import. -/
def importAttribute : Reader Node := do
  let start ← here
  let key ← exportedName
  let _ ← expect .colon
  node start .moduleSpecifier [key, ← moduleName]

/-- Reads the module that a declaration takes names from, with its attributes. -/
def moduleSource : Reader (List Node) := do
  let source ← moduleName
  if ← acceptWord "with" then
    let _ ← expect .lbrace
    let (attributes, _) ← commaList .rbrace importAttribute
    return source :: attributes
  else return [source]

/-- Reads one imported name in braces. -/
def importSpecifier (s : Setting) : Reader Node := do
  let start ← here
  let t ← token
  let imported ← exportedName
  if ← acceptWord "as" then
    let name ← readVariable s .bindingName
    node start .moduleSpecifier [imported, name]
  else
    match s.variableIn? t with
    | some name => node start .moduleSpecifier [imported, Node.mk (.bindingName name) t.span []]
    | none => fail .reservedWord

/-- Reads the names of an import: all under one name, or single ones in braces. -/
def importNames (s : Setting) : Reader (List Node) := do
  if ← accept .star then
    let _ ← expectWord "as"
    let name ← readVariable s .bindingName
    return [name]
  else
    let _ ← expect .lbrace
    return (← commaList .rbrace (importSpecifier s)).1

/-- Reads an import declaration. -/
def importDeclaration (s : Setting) : Reader Node := do
  let start ← here
  let _ ← expectWord "import"
  let names ←
    match (← token).lexeme with
    | .string _ _ _ => pure []
    | .name _ _ =>
      let name ← readVariable s .bindingName
      let more ← if ← accept .comma then importNames s else pure []
      let _ ← expectWord "from"
      pure (name :: more)
    | _ =>
      let names ← importNames s
      let _ ← expectWord "from"
      pure names
  let source ← moduleSource
  endStatement
  node start .importDeclaration (names ++ source)

/-- Reads one exported name in braces. -/
def exportSpecifier : Reader Node := do
  let start ← here
  let name ← exportedName
  if ← acceptWord "as" then node start .moduleSpecifier [name, ← exportedName]
  else node start .moduleSpecifier [name]

/-- Whether an exported name can be a variable of the module itself. -/
def namesVariable (s : Setting) (n : Node) : Bool :=
  match n.children.head?.map Node.kind with
  | some (.propertyName name) => s.allowsName name
  | _ => false

/-- Reads what `export default` exports. -/
def exportedDefault (g : Rules) (s : Setting) : Reader Node := do
  let t ← token
  if t.isWord "function" then functionFrom g s t.span.start .declaration false true
  else if t.isWord "class" then classFrom g s true true
  else if startsAsyncFunction t then
    let _ ← advance
    functionFrom g s t.span.start .declaration true true
  else
    let e ← g.assignment s
    endStatement
    return e

/-- Reads an export declaration. -/
def exportDeclaration (g : Rules) (s : Setting) : Reader Node := do
  let start ← here
  let _ ← expectWord "export"
  if ← acceptWord "default" then
    let e ← exportedDefault g s
    node start .exportDeclaration [e]
  else if ← accept .star then
    let name ←
      if ← acceptWord "as" then
        let n ← exportedName
        pure [n]
      else pure []
    let _ ← expectWord "from"
    let source ← moduleSource
    endStatement
    node start .exportDeclaration (name ++ source)
  else if ← accept .lbrace then
    let (names, _) ← commaList .rbrace exportSpecifier
    let source ←
      if ← acceptWord "from" then moduleSource
      else if names.all (namesVariable s) then pure []
      else fail .reservedWord
    endStatement
    node start .exportDeclaration (names ++ source)
  else
    let t ← token
    if (declarationWord? t).isSome || t.isWord "function" || t.isWord "class" || startsAsyncFunction t then
      let d ← g.listItem s
      node start .exportDeclaration [d]
    else fail .unexpectedToken

/-! ## Statements and declarations -/

/-- Reads a statement with a label. -/
def labeled (g : Rules) (s : Setting) : Reader Node := do
  let start ← here
  let label ← readVariable s .labelName
  let _ ← expect .colon
  node start .labeled [label, ← g.statement s]

/-- Whether a token begins a declaration of a function, a class or variables of a block. -/
def beginsDeclaration (t : Token) : Bool :=
  t.isWord "function" || startsAsyncFunction t || t.isWord "class" || t.isWord "const" || letDeclares t

/-- Reads a declaration of a function, a class or variables of a block, which begins with its word. -/
def declaration (g : Rules) (s : Setting) : Reader Node := do
  let t ← token
  if startsAsyncFunction t then
    let _ ← advance
    functionFrom g s t.span.start .declaration true false
  else if t.isWord "class" then classFrom g s true false
  else if t.isWord "const" then variableStatement g s .const
  else if t.isWord "let" then variableStatement g s .let
  else functionFrom g s t.span.start .declaration false false

/-- The offsets of the faults of a declaration that stands where a statement is expected. Only a plain
function may; one that is asynchronous and a generator has two faults. -/
def misplacements (d : Node) : List Nat :=
  match d.kind with
  | .function _ isAsync isGenerator => List.replicate ([isAsync, isGenerator].count true) d.span.start
  | _ => [d.span.start]

/-- Reads a declaration that stands where a statement is expected. -/
def embeddedDeclaration (g : Rules) (s : Setting) : Reader Node := do
  let d ← declaration g s
  complain .misplacedDeclaration (misplacements d)
  return d

/-- Reads a statement that begins with a word. -/
def wordStatement (g : Rules) (s : Setting) (t : Token) (word : String) : Reader Node := do
  if word == "var" then variableStatement g s .var
  else if word == "if" then ifStatement g s
  else if word == "for" then forStatement g s
  else if word == "while" then headed g s "while" .whileStatement
  else if word == "do" then doWhile g s
  else if word == "continue" then jump s .continueStatement
  else if word == "break" then jump s .breakStatement
  else if word == "return" then returnStatement g s
  else if word == "with" then headed g s "with" .withStatement
  else if word == "switch" then switchStatement g s
  else if word == "throw" then throwStatement g s
  else if word == "try" then tryStatement g s
  else if word == "debugger" then
    let _ ← advance
    endStatement
    node t.span.start .debuggerStatement []
  else if word == "function" || word == "class" || word == "const" || startsAsyncFunction t
      || (word == "let" && t.next.isPunctuator .lbracket) then embeddedDeclaration g s
  else expressionStatement g s

/-- Reads a statement. -/
def statement (g : Rules) (s : Setting) : Reader Node := do
  let t ← token
  match t.lexeme with
  | .punctuator .lbrace => block g s
  | .punctuator .semicolon =>
    let _ ← advance
    return Node.mk .emptyStatement t.span []
  | .name word escaped =>
    if (s.variableIn? t).isSome && t.next.isPunctuator .colon then labeled g s
    else if escaped then expressionStatement g s
    else wordStatement g s t word
  | _ => expressionStatement g s

/-- Reads a statement or declaration. -/
def listItem (g : Rules) (s : Setting) : Reader Node := do
  let t ← token
  if beginsDeclaration t then declaration g s
  else if t.isWord "import" && !(t.next.isPunctuator .lparen || t.next.isPunctuator .dot) then
    importDeclaration s
  else if t.isWord "export" then exportDeclaration g s
  else statement g s

end EditionCheck.Script
