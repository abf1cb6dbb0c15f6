import EditionCheck.Script.Binding

/-!
# Expressions

The productions for expressions, functions and classes. Where an expression turns out to be a pattern
or a parameter list, because `=` or `=>` follows, it is read again as one (`Script/Pattern.lean`).
-/

set_option autoImplicit false

namespace EditionCheck.Script

open EditionCheck.Text Reader

/-! ## Literals -/

/-- Reads the substitutions in the rest of a template whose part is the next token. Only a tag in front
allows escapes without meaning. -/
def templateParts (g : Rules) (s : Setting) (tagged : Bool) : Reader (List Node) :=
  iterate (fun substitutions => do
    let t ← token
    match t.lexeme with
    | .template part =>
      let _ ← advance
      complain .invalidEscape (if tagged || part.wellFormed then [] else [t.span.start])
      if part.opens then
        let e ← g.expression s.withIn
        if ← at? .rbrace then reread (← token).asTemplateTail else fail .unexpectedToken
        return .inl (e :: substitutions)
      else return .inr substitutions.reverse
    | _ => fail .unexpectedToken) []

/-- Reads a template. -/
def template (g : Rules) (s : Setting) (tagged : Bool) : Reader Node := do
  let start ← here
  let substitutions ← templateParts g s tagged
  node start .templateLiteral substitutions

/-- Reads an expression, or three dots and an expression. -/
def spreadOr (g : Rules) (s : Setting) (kind : Kind) : Reader Node := do
  let start ← here
  if ← accept .ellipsis then node start kind [← g.assignment s.withIn]
  else g.assignment s.withIn

/-- Reads an element of an array. A comma in its place leaves a hole and is not taken. -/
def arrayElement (g : Rules) (s : Setting) : Reader Node := do
  let start ← here
  if ← at? .comma then return Node.mk .hole ⟨start, start⟩ [] else spreadOr g s .spreadElement

/-- Reads an array. -/
def arrayLiteral (g : Rules) (s : Setting) : Reader Node := do
  let start ← here
  let _ ← expect .lbracket
  let (items, comma) ← commaList .rbracket (arrayElement g s)
  node start (.arrayLiteral comma) items

/-- Reads the arguments of a call with their parentheses, and says whether a comma ends them. -/
def arguments (g : Rules) (s : Setting) : Reader (List Node × Bool) := do
  let _ ← expect .lparen
  commaList .rparen (spreadOr g s .spreadElement)

/-! ## Functions -/

/-- The surroundings inside a function. -/
def Setting.function (isAsync isGenerator : Bool) : Setting where
  inOperator := true
  yieldExpression := isGenerator
  awaitExpression := isAsync
  returnStatement := true

/-- Reads the statements up to the end of a body. Strings that stand alone in front are directives. -/
def bodyItems (g : Rules) (s : Setting) (atEnd : Token → Bool) : Reader (List Node) :=
  iterate (fun ((items, prologue) : List Node × Bool) => do
    let t ← token
    if atEnd t then return .inr items.reverse
    let n ← g.listItem s
    match prologue, t.lexeme, n with
    | true, .string raw _ _, .mk .expressionStatement span [.mk (.stringLiteral v l) s cs] =>
      return .inl (.mk (.directive raw) span [.mk (.stringLiteral v l) s cs] :: items, true)
    | _, _, _ => return .inl (n :: items, false)) ([], true)

/-- Reads the body of a function with its braces. -/
def functionBody (g : Rules) (s : Setting) : Reader Node := do
  let start ← here
  let _ ← expect .lbrace
  let items ← bodyItems g s (·.isPunctuator .rbrace)
  let _ ← expect .rbrace
  node start .functionBody items

/-- Reads the parameters and the body of a method. -/
def method (g : Rules) (form : FunctionForm) (isAsync isGenerator : Bool) : Reader Node := do
  let start ← here
  let inner := Setting.function isAsync isGenerator
  let ps ← parameters g inner
  let body ← functionBody g inner
  node start (.function form isAsync isGenerator) [ps, body]

/-- Reads a function from its keyword `function` on. The name of an expression belongs to the function,
that of a declaration to its surroundings. -/
def functionFrom (g : Rules) (s : Setting) (start : Nat) (form : FunctionForm) (isAsync nameless : Bool) :
    Reader Node := do
  let _ ← expectWord "function"
  let isGenerator ← accept .star
  let inner := Setting.function isAsync isGenerator
  let name ←
    if nameless && (← at? .lparen) then pure []
    else
      let n ← readVariable (if form == .expression then inner else s) .bindingName
      pure [n]
  let ps ← parameters g inner
  let body ← functionBody g inner
  node start (.function form isAsync isGenerator) (name ++ [ps, body])

/-- Whether an `async` is the keyword of a function: `function` follows on the same line. -/
def startsAsyncFunction (t : Token) : Bool :=
  t.isWord "async" && t.next.isWord "function" && !t.next.lineBefore

/-- Reads the body of an arrow function, whose arrow comes next, and makes the function. -/
def arrowFrom (g : Rules) (s : Setting) (start : Nat) (isAsync : Bool) (ps : Node) : Reader Node := do
  let _ ← expect .arrow
  let inner := Setting.function isAsync false
  let body ←
    if ← at? .lbrace then functionBody g inner
    else
      let e ← g.assignment { inner with inOperator := s.inOperator }
      pure (Node.mk .functionBody e.span [e])
  node start (.arrowFunction isAsync) [ps, body]

/-- Whether a token is an arrow on the line of the token before it. -/
def isArrow (t : Token) : Bool := t.isPunctuator .arrow && !t.lineBefore

/-- Makes the parameter list of an arrow function from the items before the arrow. -/
def arrowParameters (span : Span) (comma isAsync : Bool) (items : List Node) : Reader Node := do
  match Node.toParameters? comma items with
  | some ps =>
    if isAsync && Node.mentionedIn "await" ps then failAt .reservedWord span.start
    else
      takeUp items ps
      return Node.mk (.parameters comma) span ps
  | none => failAt .invalidPattern span.start

/-! ## Objects -/

/-- Whether a token ends the key of a property, so that a word before it was that key. -/
def endsKey (t : Token) : Bool :=
  t.isPunctuator .lparen || t.isPunctuator .comma || t.isPunctuator .colon || t.isPunctuator .assign
    || t.isPunctuator .rbrace || t.isPunctuator .semicolon || t.lexeme == .endOfText

/-- The words in front of the key of a method. -/
structure Modifiers where
  isAsync : Bool := false
  isGenerator : Bool := false
  form : FunctionForm := .method

/-- Reads the words in front of the key of a method. A word that is the key itself stays. -/
def modifiers : Reader Modifiers := do
  let t ← token
  let word := !(endsKey t.next)
  if t.isWord "async" && word && !t.next.lineBefore then
    let _ ← advance
    return { isAsync := true, isGenerator := ← accept .star }
  if t.isWord "get" && word && !t.next.isPunctuator .star then
    let _ ← advance
    return { form := .getter }
  if t.isWord "set" && word && !t.next.isPunctuator .star then
    let _ ← advance
    return { form := .setter }
  return { isGenerator := ← accept .star }

/-- How a property with a given function is written. -/
def PropertyForm.ofFunction : FunctionForm → PropertyForm
  | .getter => .getter
  | .setter => .setter
  | _ => .method

/-- Reads a property of an object. A name alone may have a value behind `=`, which only a pattern may
keep. -/
def objectProperty (g : Rules) (s : Setting) : Reader Node := do
  let start ← here
  if ← accept .ellipsis then node start .spreadProperty [← g.assignment s.withIn]
  else
    let m ← modifiers
    let t ← token
    let (key, computed) ← propertyKey g s
    if (← at? .lparen) || m.isAsync || m.isGenerator || m.form != .method then
      let f ← method g m.form m.isAsync m.isGenerator
      node start (.objectProperty (.ofFunction m.form) false computed) [key, f]
    else if ← accept .colon then
      let value ← g.assignment s.withIn
      node start (.objectProperty .plain false computed) [key, value]
    else
      match s.variableIn? t with
      | some name =>
        let value := Node.mk (.reference name) t.span []
        if ← accept .assign then
          let initial ← g.assignment s.withIn
          addDefault start
          node start (.objectProperty .plain true false) [key, value, initial]
        else node start (.objectProperty .plain true false) [key, value]
      | none => fail .unexpectedToken

/-- Reads an object. -/
def objectLiteral (g : Rules) (s : Setting) : Reader Node := do
  let start ← here
  let _ ← expect .lbrace
  let (items, comma) ← commaList .rbrace (objectProperty g s)
  node start (.objectLiteral comma) items

/-! ## Parentheses -/

/-- Reads an item between parentheses: an expression, or a rest element that only an arrow function can
use. -/
def parenthesizedItem (g : Rules) (s : Setting) : Reader Node := do
  let start ← here
  if ← accept .ellipsis then restElement start .rparen (g.bindingTarget s)
  else g.assignment s.withIn

/-- Joins expressions that commas separate. -/
def sequenceOf : List Node → Option Node
  | [] => none
  | [e] => some e
  | e :: es => some (Node.mk .sequence (e.span.through ((e :: es).getLast?.getD e).span) (e :: es))

/-- Reads what stands in parentheses. If an arrow may follow and does, the answer is the arrow function
and ends the expression. -/
def parenthesized (g : Rules) (s : Setting) (arrow : Bool) : Reader (Node × Bool) := do
  let start ← here
  let _ ← expect .lparen
  let (items, comma) ← commaList .rparen (parenthesizedItem g s)
  let span ← spanFrom start
  if arrow && isArrow (← token) then
    let ps ← arrowParameters span comma false items
    return (← arrowFrom g s start false ps, true)
  else if comma || items.any (·.kind == .restElement) then fail .unexpectedToken
  else
    match sequenceOf items with
    | some e => return (Node.mk .parenthesized span [e], false)
    | none => fail .unexpectedToken

/-! ## Classes -/

/-- The name that the key of a class element spells, if it is not computed. -/
def keyText? (key : Node) : Option String :=
  match key.kind with
  | .propertyName name => some name
  | .stringLiteral value _ => some value
  | _ => none

/-- How many faults a class element of a form and key has: a private `#constructor`, a static
`prototype`, a field `constructor`, and a constructor that is an accessor, a generator or asynchronous. -/
def elementFaults (isStatic isMethod : Bool) (m : Modifiers) (key : Node) (computed : Bool) : Nat :=
  let isNamed (name : String) : Bool := !computed && keyText? key == some name
  let isConstructor := !isStatic && isMethod && isNamed "constructor"
  [key.kind == .privateName "constructor",
    isStatic && isNamed "prototype",
    !isMethod && isNamed "constructor",
    isConstructor && m.form != .method,
    isConstructor && m.isGenerator,
    isConstructor && m.isAsync].count true

/-- Reads the key of a class element. -/
def classKey (g : Rules) (s : Setting) : Reader (Node × Bool) := do
  match (← token).lexeme with
  | .privateName _ => return (← privateName, false)
  | _ => propertyKey g s

/-- Reads an element of a class. -/
def classElement (g : Rules) (s : Setting) (derived : Bool) : Reader Node := do
  let t ← token
  let start := t.span.start
  let isStatic := t.isWord "static" && !(endsKey t.next && !(t.next.isPunctuator .lbrace))
  if isStatic then
    let _ ← advance
  if isStatic && (← at? .lbrace) then
    let _ ← advance
    let inner : Setting := { awaitExpression := true }
    let items ← itemsUntil .rbrace (g.listItem inner)
    node start .staticBlock items
  else
    let m ← modifiers
    let plain := !m.isAsync && !m.isGenerator && m.form == .method
    let (key, computed) ← classKey g s
    let isMethod := !plain || (← at? .lparen)
    let faults := elementFaults isStatic isMethod m key computed
    complain .invalidClassElement (List.replicate faults key.span.start)
    if isMethod then
      let form := if !isStatic && !computed && keyText? key == some "constructor" then
        .constructor derived else m.form
      let f ← method g form m.isAsync m.isGenerator
      node start (.methodDefinition form isStatic computed) [key, f]
    else
      let value ←
        if ← accept .assign then
          let e ← g.assignment {}
          pure [Node.mk .fieldInitializer e.span [e]]
        else pure []
      endStatement
      node start (.fieldDefinition isStatic computed) (key :: value)

/-- Reads the elements of a class with their braces. -/
def classBody (g : Rules) (s : Setting) (derived : Bool) : Reader Node := do
  let start ← here
  let _ ← expect .lbrace
  let items ← iterate (fun items => do
    if ← accept .rbrace then return .inr items.reverse
    if ← accept .semicolon then return .inl items
    return .inl ((← classElement g s derived) :: items)) []
  node start .classBody items

/-! ## Members and calls -/

/-- Reads `import` as part of an expression: `import.meta`, or a call where one is allowed. -/
def importExpression (g : Rules) (s : Setting) (calls : Bool) : Reader Node := do
  let start ← here
  let _ ← expectWord "import"
  if ← accept .dot then
    let _ ← expectWord "meta"
    node start .importMeta []
  else if calls then
    let _ ← expect .lparen
    let (items, _) ← commaList .rparen (g.assignment s.withIn)
    if items.isEmpty || 2 < items.length then fail .unexpectedToken
    else node start .importCall items
  else fail .unexpectedToken

/-- Reads `super`, which a member access or, where one is allowed, a call must follow. -/
def superExpression (calls : Bool) : Reader Node := do
  let t ← advance
  if (← at? .dot) || (← at? .lbracket) || (calls && (← at? .lparen)) then
    return Node.mk .superKeyword t.span []
  else fail .unexpectedToken

/-- The literal that a word is. -/
def wordLiteral? (word : String) : Option Kind :=
  if word == "this" then some .thisExpression
  else if word == "null" then some .nullLiteral
  else if word == "true" || word == "false" then some .booleanLiteral
  else none

/-- Reads a class from its keyword on. -/
def classFrom (g : Rules) (s : Setting) (isDeclaration nameless : Bool) : Reader Node := do
  let start ← here
  let _ ← expectWord "class"
  let name ←
    if nameless && ((← at? .lbrace) || (← atWord? "extends")) then pure []
    else
      let n ← readVariable s .bindingName
      pure [n]
  let parent ←
    if ← acceptWord "extends" then
      let e ← g.member s true
      pure [Node.mk .classHeritage e.span [e]]
    else pure []
  let body ← classBody g s (!parent.isEmpty)
  node start (.classNode isDeclaration) (name ++ parent ++ [body])

/-- Reads the member accesses and, where they are allowed, the calls behind an expression. An optional
link makes the rest of the row part of one chain. -/
def memberTail (g : Rules) (s : Setting) (calls : Bool) (start : Nat) (first : Node) : Reader Node :=
  iterate (fun ((e, chained) : Node × Bool) => do
    let link (start : Nat) (e : Node) : Reader Node := do
      match (← token).lexeme with
      | .privateName _ =>
        let name ← privateName
        node start .privateMember [e, name]
      | _ =>
        let name ← propertyName
        node start .member [e, name]
    let t ← token
    match t.lexeme with
    | .punctuator .dot =>
      let _ ← advance
      return .inl (← link start e, chained)
    | .punctuator .lbracket =>
      let _ ← advance
      let i ← g.expression s.withIn
      let _ ← expect .rbracket
      return .inl (← node start .index [e, i], chained)
    | .template _ =>
      if chained then fail .unexpectedToken
      else
        let quasi ← template g s true
        return .inl (← node start .taggedTemplate [e, quasi], chained)
    | .punctuator .lparen =>
      if calls then
        let (items, comma) ← arguments g s
        return .inl (← node start (.call comma) (e :: items), chained)
      else return .inr (← finish e chained)
    | .punctuator .questionDot =>
      if calls then
        let _ ← advance
        if ← at? .lparen then
          let (items, comma) ← arguments g s
          return .inl (← node start (.call comma) (e :: items), true)
        else if ← accept .lbracket then
          let i ← g.expression s.withIn
          let _ ← expect .rbracket
          return .inl (← node start .index [e, i], true)
        else return .inl (← link start e, true)
      else fail .unexpectedToken
    | _ => return .inr (← finish e chained)) (first, false)
where
  finish (e : Node) (chained : Bool) : Reader Node :=
    if chained then node start .chain [e] else return e

/-- Reads `new.target`, or `new` with the expression that it constructs. -/
def newExpression (g : Rules) (s : Setting) : Reader Node := do
  let start ← here
  let _ ← expectWord "new"
  if ← accept .dot then
    let _ ← expectWord "target"
    node start .newTarget []
  else
    let callee ← g.member s false
    if ← at? .lparen then
      let (items, comma) ← arguments g s
      node start (.newCall comma) (callee :: items)
    else node start (.newCall false) [callee]

/-- Reads an expression without operators, members and calls. -/
def primary (g : Rules) (s : Setting) (calls : Bool) : Reader Node := do
  let t ← token
  match t.lexeme with
  | .name text escaped =>
    if escaped then readVariable s .reference
    else if text == "function" then functionFrom g s t.span.start .expression false true
    else if text == "class" then classFrom g s false true
    else if text == "new" then newExpression g s
    else if text == "super" then superExpression calls
    else if text == "import" then importExpression g s calls
    else if startsAsyncFunction t then
      let _ ← advance
      functionFrom g s t.span.start .expression true true
    else
      match wordLiteral? text with
      | some kind =>
        let _ ← advance
        return Node.mk kind t.span []
      | none => readVariable s .reference
  | .template _ => template g s false
  | .punctuator .lparen => return (← parenthesized g s false).1
  | .punctuator .lbracket => arrayLiteral g s
  | .punctuator .lbrace => objectLiteral g s
  | .punctuator .slash => regExp t
  | .punctuator .slashAssign => regExp t
  | lexeme =>
    match literalKind? lexeme with
    | some kind =>
      let _ ← advance
      return Node.mk kind t.span []
    | none => fail .unexpectedToken
where
  regExp (t : Token) : Reader Node := do
    reread t.asRegExp
    let t ← token
    if t.lexeme == .regExp then
      let _ ← advance
      return Node.mk .regExpLiteral t.span []
    else fail .unexpectedToken

/-- Reads an expression with the member accesses behind it, and the calls where they are allowed. -/
def member (g : Rules) (s : Setting) (calls : Bool) : Reader Node := do
  let e ← primary g s calls
  memberTail g s calls e.span.start e

end EditionCheck.Script
