import EditionCheck.Script.Expression

/-!
# Operators

The productions for operators, assignments and arrow functions. Each production that begins with an
operand can be given one that has been read already.
-/

set_option autoImplicit false

namespace EditionCheck.Script

open EditionCheck.Text Reader

/-! ## Tables -/

/-- The operator that a punctuator is before an operand. -/
def unaryPunctuator? : Punctuator → Option UnaryOperator
  | .plus => some .plus
  | .minus => some .minus
  | .bang => some .not
  | .tilde => some .complement
  | _ => none

/-- The operator that a word is before an operand. -/
def unaryWord? (word : String) : Option UnaryOperator :=
  if word == "typeof" then some .typeOf
  else if word == "void" then some .void
  else if word == "delete" then some .delete
  else none

/-- The operator before an operand that a token is. -/
def unaryOperator? (t : Token) : Option UnaryOperator :=
  match t.lexeme with
  | .punctuator p => unaryPunctuator? p
  | .name text false => unaryWord? text
  | _ => none

/-- The level at which `in` and `instanceof` bind. -/
def relationalLevel : Nat := 8

/-- The level at which `**` binds. -/
def powerLevel : Nat := 12

/-- The operator between two operands that a punctuator is, as a kind of node, and how tightly it
binds. -/
def binaryPunctuator? : Punctuator → Option (Kind × Nat)
  | .nullish => some (.logical .coalesce, 1)
  | .logicalOr => some (.logical .or, 2)
  | .logicalAnd => some (.logical .and, 3)
  | .bitOr => some (.binary .bitOr, 4)
  | .bitXor => some (.binary .bitXor, 5)
  | .bitAnd => some (.binary .bitAnd, 6)
  | .equal => some (.binary .equal, 7)
  | .notEqual => some (.binary .notEqual, 7)
  | .strictEqual => some (.binary .strictEqual, 7)
  | .strictNotEqual => some (.binary .strictNotEqual, 7)
  | .less => some (.binary .less, relationalLevel)
  | .lessEqual => some (.binary .lessEqual, relationalLevel)
  | .greater => some (.binary .greater, relationalLevel)
  | .greaterEqual => some (.binary .greaterEqual, relationalLevel)
  | .shiftLeft => some (.binary .shiftLeft, 9)
  | .shiftRight => some (.binary .shiftRight, 9)
  | .shiftRightZero => some (.binary .shiftRightZero, 9)
  | .plus => some (.binary .plus, 10)
  | .minus => some (.binary .minus, 10)
  | .star => some (.binary .times, 11)
  | .slash => some (.binary .divide, 11)
  | .percent => some (.binary .remainder, 11)
  | .power => some (.binary .power, powerLevel)
  | _ => none

/-- The operator between two operands that a token is in given surroundings. -/
def binaryOperator? (s : Setting) (t : Token) : Option (Kind × Nat) :=
  match t.lexeme with
  | .punctuator p => binaryPunctuator? p
  | .name text false =>
    if text == "instanceof" then some (.binary .instanceOf, relationalLevel)
    else if text == "in" && s.inOperator then some (.binary .inOperator, relationalLevel)
    else none
  | _ => none

/-- The assignment that a punctuator stands for. -/
def assignmentOperator? : Punctuator → Option AssignmentOperator
  | .assign => some .assign
  | .plusAssign => some .arithmetic
  | .minusAssign => some .arithmetic
  | .starAssign => some .arithmetic
  | .slashAssign => some .arithmetic
  | .percentAssign => some .arithmetic
  | .shiftLeftAssign => some .arithmetic
  | .shiftRightAssign => some .arithmetic
  | .shiftRightZeroAssign => some .arithmetic
  | .bitAndAssign => some .arithmetic
  | .bitOrAssign => some .arithmetic
  | .bitXorAssign => some .arithmetic
  | .powerAssign => some .power
  | .logicalAndAssign => some .logical
  | .logicalOrAssign => some .logical
  | .nullishAssign => some .logical
  | _ => none

/-! ## Operands -/

/-- Reads an operand of `++` or `--` again as a target. -/
def updated (start : Nat) (e : Node) : Reader Node := do
  match e.toSimpleTarget? with
  | some t => node start .update [t]
  | none => failAt .invalidTarget e.span.start

/-- Reads the `++` or `--` that may stand behind an operand on its line. -/
def postfixOf (e : Node) : Reader Node := do
  let t ← token
  if (t.isPunctuator .increment || t.isPunctuator .decrement) && !t.lineBefore then
    let _ ← advance
    updated e.span.start e
  else return e

/-- Reads an operand with the operators before and behind it. -/
def unary (g : Rules) (s : Setting) : Reader Node := do
  let t ← token
  let start := t.span.start
  if t.isPunctuator .increment || t.isPunctuator .decrement then
    let _ ← advance
    updated start (← g.unary s)
  else if s.awaitExpression && t.isWord "await" then
    let _ ← advance
    node start .awaitExpression [← g.unary s]
  else
    match unaryOperator? t with
    | some op =>
      let _ ← advance
      node start (.unary op) [← g.unary s]
    | none => postfixOf (← member g s true)

/-- Reads the operators of at least a given level behind an operand. `**` groups to the right. -/
def binaryTail (g : Rules) (s : Setting) (level : Nat) (first : Node) : Reader Node :=
  iterate (fun e => do
    match binaryOperator? s (← token) with
    | some (kind, l) =>
      if level ≤ l then
        let _ ← advance
        let right ← g.binary s (if l = powerLevel then l else l + 1)
        return .inl (← node e.span.start kind [e, right])
      else return .inr e
    | none => return .inr e) first

/-- Reads the test whether an object has a private element, whose name comes next. -/
def privateTest (g : Rules) (s : Setting) (level : Nat) : Reader Node := do
  let start ← here
  let name ← privateName
  if level ≤ relationalLevel && s.inOperator then
    let _ ← expectWord "in"
    node start .privateIn [name, ← g.binary s (relationalLevel + 1)]
  else fail .unexpectedToken

/-- Reads operands joined by operators of at least a given level. -/
def binary (g : Rules) (s : Setting) (level : Nat) : Reader Node := do
  match (← token).lexeme with
  | .privateName _ => binaryTail g s level (← privateTest g s level)
  | _ => binaryTail g s level (← unary g s)

/-! ## Conditions and assignments -/

/-- Reads the branches that may stand behind a condition. -/
def conditionalTail (g : Rules) (s : Setting) (test : Node) : Reader Node := do
  if ← accept .question then
    let yes ← g.assignment s.withIn
    let _ ← expect .colon
    let no ← g.assignment s
    node test.span.start .conditional [test, yes, no]
  else return test

/-- Reads the assignment that may stand behind a target. Only `=` takes a pattern. -/
def assignmentTail (g : Rules) (s : Setting) (left : Node) : Reader Node := do
  match (← token).lexeme with
  | .punctuator p =>
    match assignmentOperator? p with
    | some op =>
      match (if op == .assign then left.toTarget? else left.toSimpleTarget?) with
      | some target =>
        takeUp [left] [target]
        let _ ← advance
        let value ← g.assignment s
        node left.span.start (.assignment op) [target, value]
      | none => failAt .invalidTarget left.span.start
    | none => return left
  | _ => return left

/-- Reads on behind an expression without operators, up to the end of an assignment. -/
def operationFrom (g : Rules) (s : Setting) (first : Node) : Reader Node := do
  let e ← memberTail g s true first.span.start first
  let e ← postfixOf e
  let e ← binaryTail g s 0 e
  let e ← conditionalTail g s e
  assignmentTail g s e

/-- Whether an operand may stand behind `yield`, on its line: the next token does not end the
expression. -/
def yieldsOperand (t : Token) : Bool :=
  !(t.lineBefore || t.lexeme == .endOfText || t.isWord "in" || t.isWord "of"
    || t.isPunctuator .rparen || t.isPunctuator .rbracket || t.isPunctuator .rbrace
    || t.isPunctuator .comma || t.isPunctuator .semicolon || t.isPunctuator .colon)

/-- Reads `yield` with its operand. -/
def yieldFrom (g : Rules) (s : Setting) : Reader Node := do
  let t ← advance
  let start := t.span.start
  let next ← token
  if next.isPunctuator .star && !next.lineBefore then
    let _ ← advance
    node start .yieldExpression [← g.assignment s]
  else if yieldsOperand next then node start .yieldExpression [← g.assignment s]
  else node start .yieldExpression []

/-- Reads `async` with parentheses behind it: the parameters of an arrow function, or the arguments of a
call. -/
def asyncCall (g : Rules) (s : Setting) : Reader Node := do
  let t ← advance
  let start := t.span.start
  let paren ← here
  let (items, comma) ← arguments g s
  if isArrow (← token) then
    let ps ← arrowParameters (← spanFrom paren) comma true items
    arrowFrom g s start true ps
  else
    let callee := Node.mk (.reference "async") t.span []
    operationFrom g s (← node start (.call comma) (callee :: items))

/-- Reads an arrow function whose only parameter is the name that comes next. -/
def singleArrow (g : Rules) (s : Setting) (start : Nat) (isAsync : Bool) : Reader Node := do
  let p ← readVariable { s with awaitExpression := s.awaitExpression || isAsync } .bindingName
  let ps := Node.mk (.parameters false) p.span [Node.mk .parameter p.span [p]]
  arrowFrom g s start isAsync ps

/-- Reads an expression without commas. -/
def assignment (g : Rules) (s : Setting) : Reader Node := do
  let t ← token
  let start := t.span.start
  if s.yieldExpression && t.isWord "yield" then yieldFrom g s
  else if t.isPunctuator .lparen then
    let (e, done) ← parenthesized g s true
    if done then return e else operationFrom g s e
  else if t.name?.isSome && isArrow t.next then singleArrow g s start false
  else if t.isWord "async" && !t.next.lineBefore && t.next.isPunctuator .lparen then asyncCall g s
  else if t.isWord "async" && !t.next.lineBefore && t.next.name?.isSome && isArrow t.next.next then
    let _ ← advance
    singleArrow g s start true
  else
    let e ← binary g s 0
    let e ← conditionalTail g s e
    assignmentTail g s e

/-- Reads an expression. -/
def expression (g : Rules) (s : Setting) : Reader Node := do
  let first ← assignment g s
  let rest ← iterate (fun es => do
    if ← accept .comma then return .inl ((← g.assignment s) :: es)
    return .inr es.reverse) []
  return (sequenceOf (first :: rest)).getD first

end EditionCheck.Script
