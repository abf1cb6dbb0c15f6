import EditionCheck.Script.Reading

/-!
# Names, keys and binding patterns

The productions for variables, property keys, patterns that declare names, and parameter lists.
-/

set_option autoImplicit false

namespace EditionCheck.Script

open EditionCheck.Text Reader

/-! ## Names -/

/-- Whether a word can name a variable in given surroundings. -/
def Setting.allowsName (s : Setting) (word : String) : Bool :=
  !(reservedWords.contains word) && !(s.yieldExpression && word == "yield")
    && !(s.awaitExpression && word == "await")

/-- The variable name that a token is, if it is one in given surroundings. -/
def Setting.variableIn? (s : Setting) (t : Token) : Option String := t.name?.filter s.allowsName

/-- Reads the name of a variable into a leaf of a given kind. -/
def readVariable (s : Setting) (kind : String → Kind) : Reader Node := do
  let t ← token
  match s.variableIn? t with
  | some name =>
    let _ ← advance
    return Node.mk (kind name) t.span []
  | none => fail .reservedWord

/-- Reads a name that may also be a reserved word. -/
def propertyName : Reader Node := do
  let t ← token
  match t.name? with
  | some name =>
    let _ ← advance
    return Node.mk (.propertyName name) t.span []
  | none => fail .unexpectedToken

/-- Reads the name of a private element. -/
def privateName : Reader Node := do
  let t ← token
  match t.lexeme with
  | .privateName name =>
    let _ ← advance
    return Node.mk (.privateName name) t.span []
  | _ => fail .unexpectedToken

/-- The literal that a token is. -/
def literalKind? : Lexeme → Option Kind
  | .number legacy => some (.numericLiteral legacy)
  | .bigInt => some .bigIntLiteral
  | .string _ value legacy => some (.stringLiteral value legacy)
  | _ => none

/-- Reads the key of a property, and says whether it is computed. -/
def propertyKey (g : Rules) (s : Setting) : Reader (Node × Bool) := do
  let t ← token
  if t.isPunctuator .lbracket then
    let _ ← advance
    let e ← g.assignment s.withIn
    let _ ← expect .rbracket
    return (e, true)
  match literalKind? t.lexeme with
  | some kind =>
    let _ ← advance
    return (Node.mk kind t.span [], false)
  | none => return (← propertyName, false)

/-! ## Patterns -/

/-- Reads the default that may stand behind a pattern. -/
def withDefault (g : Rules) (s : Setting) (p : Node) : Reader Node := do
  if ← accept .assign then
    let value ← g.assignment s.withIn
    node p.span.start .defaultedPattern [p, value]
  else return p

/-- Reads a pattern with its default. -/
def bindingElement (g : Rules) (s : Setting) : Reader Node := do
  withDefault g s (← g.bindingTarget s)

/-- Reads a rest element, which the given punctuator must follow, behind its three dots. -/
def restElement (start : Nat) (close : Punctuator) (target : Reader Node) : Reader Node := do
  let n ← node start .restElement [← target]
  if ← at? close then return n else fail .unexpectedToken

/-- Reads an element of an array pattern. A comma in its place leaves a hole and is not taken. -/
def arrayPatternElement (g : Rules) (s : Setting) : Reader Node := do
  let start ← here
  if ← at? .comma then return Node.mk .hole ⟨start, start⟩ []
  if ← accept .ellipsis then restElement start .rbracket (g.bindingTarget s)
  else bindingElement g s

/-- Reads a property of an object pattern. -/
def objectPatternProperty (g : Rules) (s : Setting) : Reader Node := do
  let t ← token
  let start := t.span.start
  if ← accept .ellipsis then
    restElement start .rbrace (readVariable s .bindingName)
  else
    let (key, computed) ← propertyKey g s
    if ← accept .colon then
      let value ← bindingElement g s
      node start (.patternProperty false computed) [key, value]
    else
      match s.variableIn? t with
      | some name =>
        let value ← withDefault g s (Node.mk (.bindingName name) t.span [])
        node start (.patternProperty true false) [key, value]
      | none => failAt .reservedWord start

/-- Reads a pattern. -/
def bindingTarget (g : Rules) (s : Setting) : Reader Node := do
  let start ← here
  if ← accept .lbracket then
    let (items, _) ← commaList .rbracket (arrayPatternElement g s)
    node start .arrayPattern items
  else if ← accept .lbrace then
    let (items, _) ← commaList .rbrace (objectPatternProperty g s)
    node start .objectPattern items
  else readVariable s .bindingName

/-! ## Parameters -/

/-- Reads one parameter. -/
def parameter (g : Rules) (s : Setting) : Reader Node := do
  let start ← here
  if ← accept .ellipsis then restElement start .rparen (g.bindingTarget s)
  else
    let p ← bindingElement g s
    return Node.mk .parameter p.span [p]

/-- Reads a parameter list with its parentheses. -/
def parameters (g : Rules) (s : Setting) : Reader Node := do
  let start ← here
  let _ ← expect .lparen
  let (items, comma) ← commaList .rparen (parameter g s)
  node start (.parameters comma) items

end EditionCheck.Script
